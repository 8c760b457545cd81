import Intcode.Proofs.Assembly.Code
import Intcode.Proofs.FirstFault

namespace Intcode.Assembly

/-- A statement declares a name once more. -/
inductive Repeats (before : List Statement) : Statement → CodeError → Prop
  | label {line : Nat} {name : String} (known : .label name ∈ before.map Statement.item) :
      Repeats before { line, item := .label name } { fault := .duplicateLabel name, line }
  | var {line : Nat} {name : String} {initial first : Word}
      (known : .var name first ∈ before.map Statement.item) :
      Repeats before { line, item := .var name initial } { fault := .duplicateVariable name, line }

/-- An argument names what is not declared. -/
inductive Lacks (items : List Item) (line : Nat) : Argument → CodeError → Prop
  | label {name : String} (unknown : .label name ∉ items) :
      Lacks items line (.label name) { fault := .unknownLabel name, line }
  | var {name : String} (unknown : ∀ initial, .var name initial ∉ items) :
      Lacks items line (.var name) { fault := .undeclaredVariable name, line }

/-- Two items differ at most in slots beyond the parameters of their opcode. -/
inductive Item.Alike : Item → Item → Prop
  | refl {item : Item} : Alike item item
  | instruction {opcode : Opcode} {slots others : Vector Argument maxArity}
      (same : ∀ index < opcode.arity, slots[index]? = others[index]?) :
      Alike (.instruction opcode slots) (.instruction opcode others)

def Statement.Alike (statement other : Statement) : Prop :=
  statement.line = other.line ∧ statement.item.Alike other.item

variable {items : List Item} {batch others : List Statement} {statement other : Statement}
  {error : CodeError} {line : Nat}

theorem Item.Alike.arguments_eq {item other : Item} (alike : item.Alike other) :
    item.arguments = other.arguments := by
  cases alike with
  | refl => rfl
  | @instruction opcode slots others same =>
      apply List.ext_getElem?
      intro index
      simp only [Item.arguments, List.getElem?_take, Vector.getElem?_toList]
      split <;> rename_i inside
      · exact same index inside
      · rfl

section Counting

variable {α : Type} {check : α → Bool} {rows : List α}

theorem one_lt_countP_iff :
    1 < rows.countP check ↔
      ∃ before row after, rows = before ++ row :: after ∧ check row = true ∧
        ∃ earlier ∈ before, check earlier = true := by
  constructor
  · intro twice
    -- From the end on, the last of two is the one that has another in front of it.
    induction rows using List.reverseRecOn with
    | nil => cases twice
    | append_singleton before row ih =>
        rw [List.countP_append, List.countP_singleton] at twice
        by_cases enough : 1 < before.countP check
        · obtain ⟨front, found, between, rfl, passes, earlier⟩ := ih enough
          exact ⟨front, found, between ++ [row], by simp, passes, earlier⟩
        · split at twice <;> rename_i passes
          · have some : 0 < before.countP check := by omega
            exact ⟨before, row, [], rfl, passes, List.countP_pos_iff.mp some⟩
          · omega
  · rintro ⟨before, row, after, rfl, passes, earlier⟩
    have some := List.countP_pos_iff.mpr earlier
    rw [List.countP_append, List.countP_cons_of_pos passes]
    omega

end Counting

namespace Symbols

variable {symbols : Symbols} {name : String}

theorem firstPlace?_isSome {check : Item → Bool} :
    (firstPlace? items check).isSome = true ↔ ∃ item ∈ items, check item = true := by
  rw [firstPlace?, Option.isSome_map, List.findIdx?_isSome, List.any_eq_true]

theorem Records.mem_labels_iff (records : Records symbols items) :
    name ∈ symbols.labels ↔ .label name ∈ items := by
  rw [Std.ExtTreeMap.mem_iff_isSome_getElem?, records.labels, firstPlace?_isSome]
  simp only [Layout.marks_eq_true, exists_eq_right]

theorem Records.mem_vars_iff (records : Records symbols items) :
    name ∈ symbols.vars ↔ ∃ initial, .var name initial ∈ items := by
  rw [Std.ExtTreeMap.mem_iff_isSome_getElem?, records.vars, firstPlace?_isSome]
  simp only [Layout.declares_eq_true]
  exact ⟨fun ⟨_, member, initial, same⟩ => ⟨initial, same ▸ member⟩,
    fun ⟨initial, member⟩ => ⟨_, member, initial, rfl⟩⟩

theorem declare_eq_error_iff {before : List Statement}
    (records : Records symbols (before.map Statement.item)) :
    symbols.declare statement = .error error ↔ Repeats before statement error := by
  obtain ⟨line, item⟩ := statement
  cases item with
  | label name =>
      simp only [declare]
      split <;> rename_i known <;> rw [records.mem_labels_iff] at known
      · refine ⟨fun same => ?_, fun repeats => ?_⟩
        · cases same
          exact .label known
        · cases repeats
          rfl
      · refine iff_of_false (by rintro ⟨⟩) fun repeats => ?_
        cases repeats with
        | label again => exact known again
  | var name initial =>
      simp only [declare]
      split <;> rename_i known <;> rw [records.mem_vars_iff] at known
      · refine ⟨fun same => ?_, fun repeats => ?_⟩
        · cases same
          obtain ⟨first, member⟩ := known
          exact .var member
        · cases repeats
          rfl
      · refine iff_of_false (by rintro ⟨⟩) fun repeats => ?_
        cases repeats with
        | var again => exact known ⟨_, again⟩
  | instruction opcode slots => exact iff_of_false (by rintro ⟨⟩) (by rintro ⟨⟩)

theorem populate_eq_error_iff :
    ({} : Symbols).populate batch = .error error ↔ FirstFault Repeats batch error := by
  have fails (before : List Statement) (symbols : Symbols) (statement : Statement)
      (error : CodeError) (records : Records symbols (before.map Statement.item)) :
      symbols.declare statement = .error error ↔ Repeats before statement error :=
    declare_eq_error_iff records
  have keeps (before : List Statement) (symbols : Symbols) (statement : Statement)
      (after : Symbols) (records : Records symbols (before.map Statement.item))
      (declared : symbols.declare statement = .ok after) :
      Records after ((before ++ [statement]).map Statement.item) := by
    rw [List.map_append, List.map_singleton]
    exact records_declare records declared
  have start : Records {} (([] : List Statement).map Statement.item) := records_empty
  exact foldlM_eq_error_iff fails keeps start

theorem argumentWord_eq_error_iff (records : Records symbols items) {argument : Argument} :
    symbols.argumentWord line argument = .error error ↔ Lacks items line argument error := by
  cases argument with
  | number value => exact iff_of_false (by rintro ⟨⟩) (by rintro ⟨⟩)
  | label name =>
      simp only [argumentWord]
      split <;> rename_i found
      · obtain ⟨member, _⟩ := Std.ExtTreeMap.getElem?_eq_some_iff.mp found
        have known := records.mem_labels_iff.mp member
        refine iff_of_false (by rintro ⟨⟩) fun lacks => ?_
        cases lacks with
        | label unknown => exact unknown known
      · rw [getElem?_eq_none_iff, records.mem_labels_iff] at found
        refine ⟨fun same => ?_, fun lacks => ?_⟩
        · cases same
          exact .label found
        · cases lacks
          rfl
  | var name =>
      simp only [argumentWord]
      split <;> rename_i found
      · obtain ⟨member, _⟩ := Std.ExtTreeMap.getElem?_eq_some_iff.mp found
        have known := records.mem_vars_iff.mp member
        refine iff_of_false (by rintro ⟨⟩) fun lacks => ?_
        cases lacks with
        | var unknown =>
            obtain ⟨initial, stands⟩ := known
            exact unknown initial stands
      · rw [getElem?_eq_none_iff, records.mem_vars_iff, not_exists] at found
        refine ⟨fun same => ?_, fun lacks => ?_⟩
        · cases same
          exact .var found
        · cases lacks
          rfl

theorem cells_eq_error_iff (records : Records symbols items) :
    symbols.cells statement = .error error ↔
      FirstFault (fun _ => Lacks items statement.line) statement.item.arguments error := by
  obtain ⟨line, item⟩ := statement
  have fails (argument : Argument) (error : CodeError) :
      symbols.argumentWord line argument = .error error ↔ Lacks items line argument error :=
    argumentWord_eq_error_iff records
  cases item with
  | label name => exact iff_of_false (by rintro ⟨⟩) not_firstFault_nil
  | var name initial => exact iff_of_false (by rintro ⟨⟩) not_firstFault_nil
  | instruction opcode slots =>
      simp only [cells, map_eq_error_iff, mapM_eq_error_iff, fails]

theorem generate_eq_error_iff (records : Records symbols items) :
    symbols.generate batch = .error error ↔
      FirstFault (fun _ statement => FirstFault (fun _ => Lacks items statement.line)
        statement.item.arguments) batch error := by
  simp only [generate, map_eq_error_iff, mapM_eq_error_iff, cells_eq_error_iff records]

theorem declare_alike (alike : statement.Alike other) :
    symbols.declare statement = symbols.declare other := by
  obtain ⟨line, item⟩ := statement
  obtain ⟨_, _⟩ := other
  obtain ⟨rfl, same⟩ := alike
  cases same <;> rfl

theorem cells_alike (alike : statement.Alike other) :
    symbols.cells statement = symbols.cells other := by
  obtain ⟨line, item⟩ := statement
  obtain ⟨_, _⟩ := other
  obtain ⟨rfl, same⟩ := alike
  have arguments := same.arguments_eq
  cases same with
  | refl => rfl
  | instruction =>
      simp only [cells]
      rw [arguments]

theorem populate_alike (alike : List.Forall₂ Statement.Alike batch others) :
    symbols.populate batch = symbols.populate others := by
  induction alike generalizing symbols with
  | nil => rfl
  | @cons statement other batch others here _ ih =>
      simp only [populate, List.foldlM_cons, declare_alike here]
      exact congrArg _ (funext fun _ => ih)

theorem generate_alike (alike : List.Forall₂ Statement.Alike batch others) :
    symbols.generate batch = symbols.generate others := by
  have rows : batch.mapM symbols.cells = others.mapM symbols.cells := by
    induction alike with
    | nil => rfl
    | cons here _ ih => rw [List.mapM_cons, List.mapM_cons, cells_alike here, ih]
  rw [generate, rows, generate]

end Symbols

theorem exists_repeats_iff :
    (∃ error, FirstFault Repeats batch error) ↔
      ∃ name, 1 < (batch.map Statement.item).countP (Item.marks name) ∨
        1 < (batch.map Statement.item).countP (Item.declares name) := by
  simp only [exists_firstFault_iff, List.countP_map, one_lt_countP_iff, Function.comp_apply,
    Layout.marks_eq_true, Layout.declares_eq_true]
  constructor
  · rintro ⟨before, statement, after, error, split, repeats⟩
    cases repeats with
    | @label line name known =>
        obtain ⟨earlier, member, same⟩ := List.mem_map.mp known
        exact ⟨name, .inl ⟨before, _, after, split, rfl, earlier, member, same⟩⟩
    | @var line name initial first known =>
        obtain ⟨earlier, member, same⟩ := List.mem_map.mp known
        exact ⟨name, .inr ⟨before, _, after, split, ⟨initial, rfl⟩, earlier, member, first, same⟩⟩
  · rintro ⟨name, ⟨before, ⟨line, item⟩, after, split, rfl, earlier, member, same⟩ |
      ⟨before, ⟨line, item⟩, after, split, ⟨initial, rfl⟩, earlier, member, first, same⟩⟩
    · exact ⟨before, _, after, _, split, .label (List.mem_map.mpr ⟨earlier, member, same⟩)⟩
    · exact ⟨before, _, after, _, split, .var (List.mem_map.mpr ⟨earlier, member, same⟩)⟩

/-- Statements are refused for a name just if one is declared twice or, else, one is used that is
not declared, and the error tells the first such place. Slots that mean nothing have no part in
it. -/
theorem names_are_resolved_or_blamed (batch : List Statement) :
    let items := batch.map Statement.item
    ((∃ error, ({} : Symbols).populate batch = .error error) ↔
      ∃ name, 1 < items.countP (Item.marks name) ∨ 1 < items.countP (Item.declares name)) ∧
    (∀ error, ({} : Symbols).populate batch = .error error ↔ FirstFault Repeats batch error) ∧
    ∀ symbols, ({} : Symbols).populate batch = .ok symbols →
      ((∃ error, symbols.generate batch = .error error) ↔
        ∃ statement ∈ batch, ∃ argument ∈ statement.item.arguments,
          ∃ error, Lacks items statement.line argument error) ∧
      (∀ error, symbols.generate batch = .error error ↔
        FirstFault (fun _ statement => FirstFault (fun _ => Lacks items statement.line)
          statement.item.arguments) batch error) ∧
      ∀ others, List.Forall₂ Statement.Alike batch others →
        ({} : Symbols).populate others = .ok symbols ∧
          symbols.generate others = symbols.generate batch := by
  intro items
  refine ⟨?_, fun error => Symbols.populate_eq_error_iff, fun symbols populated => ?_⟩
  · simp only [Symbols.populate_eq_error_iff]
    exact exists_repeats_iff
  · have records : symbols.Records items := Symbols.records_of_populate populated
    refine ⟨?_, fun error => Symbols.generate_eq_error_iff records, fun others alike => ?_⟩
    · simp only [Symbols.generate_eq_error_iff records, exists_firstFault_iff_mem]
    · rw [← Symbols.populate_alike alike, ← Symbols.generate_alike alike]
      exact ⟨populated, rfl⟩

/-- A label and a variable of one name, and a variable that is declared further down. What is
missing first is a label. -/
def dangling (spare : Argument) : List Statement :=
  [⟨1, .var "x" 7⟩, ⟨2, .label "x"⟩, ⟨4, .instruction .output #v[.var "late", spare, spare]⟩,
    ⟨5, .var "late" 0⟩, ⟨7, .ofArguments .add [.label "x", .label "y", .var "z"]⟩]

theorem missing_label_is_blamed :
    ∃ symbols, ({} : Symbols).populate (dangling (.number 0)) = .ok symbols ∧
      symbols.generate (dangling (.number 0)) = .error { fault := .unknownLabel "y", line := 7 } ∧
      FirstFault (fun _ statement =>
        FirstFault (fun _ => Lacks ((dangling (.number 0)).map Statement.item) statement.line)
          statement.item.arguments)
        (dangling (.number 0)) { fault := .unknownLabel "y", line := 7 } ∧
      symbols.generate (dangling (.label "nowhere")) =
        .error { fault := .unknownLabel "y", line := 7 } := by
  have fails : (({} : Symbols).populate (dangling (.number 0)) >>= fun symbols =>
      symbols.generate (dangling (.number 0))) =
      .error { fault := .unknownLabel "y", line := 7 } := by decide +kernel
  have alike :
      List.Forall₂ Statement.Alike (dangling (.number 0)) (dangling (.label "nowhere")) := by
    refine .cons ⟨rfl, .refl⟩ (.cons ⟨rfl, .refl⟩ (.cons ⟨rfl, .instruction ?_⟩
      (.cons ⟨rfl, .refl⟩ (.cons ⟨rfl, .refl⟩ .nil))))
    decide
  have populates : (({} : Symbols).populate (dangling (.number 0))).toOption.isSome = true := by
    decide +kernel
  cases populated : ({} : Symbols).populate (dangling (.number 0)) with
  | error error =>
      rw [populated] at populates
      cases populates
  | ok symbols =>
      rw [populated] at fails
      obtain ⟨_, blames, unused⟩ := (names_are_resolved_or_blamed _).2.2 symbols populated
      exact ⟨symbols, rfl, fails, (blames _).mp fails, (unused _ alike).2.trans fails⟩

end Intcode.Assembly
