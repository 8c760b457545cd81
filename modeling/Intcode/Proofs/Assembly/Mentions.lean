import Intcode.Proofs.Assembly.Forms
import Intcode.Proofs.Assembly.Fragments
import Intcode.Proofs.Assembly.Names

namespace Intcode

namespace Assembly

/-- A token with a name in it. -/
inductive Token.Carries : Token → String → Prop
  | word {name : String} : Carries (.word name) name
  | labelRef {name : String} : Carries (.labelRef name) name

/-- An argument with a name in it. -/
inductive Argument.Carries : Argument → String → Prop
  | label {name : String} : Carries (.label name) name
  | var {name : String} : Carries (.var name) name

/-- An item declares a name, or has it in one of its arguments. -/
inductive Item.Mentions : Item → String → Prop
  | label {name : String} : Mentions (.label name) name
  | var {name : String} {initial : Word} : Mentions (.var name initial) name
  | argument {item : Item} {argument : Argument} {name : String}
      (member : argument ∈ item.arguments) (carries : argument.Carries name) : Mentions item name

variable {tokens row : List Token} {rows : List (List Token)} {name : String} {item : Item}
  {batch : List Statement} {statement : Statement} {line : Nat}

theorem PassesAll.exists_carries {kinds : List ParamKind} {arguments : List Argument}
    {argument : Argument} (passed : PassesAll kinds tokens arguments)
    (member : argument ∈ arguments) (carries : argument.Carries name) :
    ∃ token ∈ tokens, token.Carries name := by
  induction passed with
  | nil => cases member
  | cons first _ ih =>
      rcases List.mem_cons.mp member with rfl | later
      · cases first with
        | number => cases carries
        | label =>
            cases carries
            exact ⟨_, List.mem_cons_self, .labelRef⟩
        | var =>
            cases carries
            exact ⟨_, List.mem_cons_self, .word⟩
        | destination =>
            cases carries
            exact ⟨_, List.mem_cons_of_mem _ List.mem_cons_self, .word⟩
      · obtain ⟨token, inside, carried⟩ := ih later
        exact ⟨token, List.mem_append_right _ inside, carried⟩

/-- The names of a statement are in the tokens of its line. -/
theorem exists_carries_of_form (form : Says row (some item)) (mentions : item.Mentions name) :
    ∃ token ∈ row, token.Carries name := by
  cases form with
  | label =>
      cases mentions with
      | label => exact ⟨_, List.mem_cons_self, .word⟩
      | argument member => cases member
  | var | varNumber | varName =>
      cases mentions with
      | var => exact ⟨_, List.mem_cons_of_mem _ List.mem_cons_self, .word⟩
      | argument member => cases member
  | @instruction opcode tokens arguments slots passed filled =>
      cases mentions with
      | argument member carries =>
          rw [← (ofArguments_eq_iff passed.room).mpr filled,
            Item.arguments_ofArguments passed.length_eq] at member
          obtain ⟨token, inside, carried⟩ := passed.exists_carries member carries
          exact ⟨token, List.mem_cons_of_mem _ inside, carried⟩

theorem exists_row_of_statement (read : readLines line rows = .ok batch)
    (member : statement ∈ batch) : ∃ row ∈ rows, Says row (some statement.item) := by
  induction rows generalizing line batch with
  | nil =>
      cases read
      cases member
  | cons row rest ih =>
      simp only [readLines] at read
      split at read
      · cases read
      · obtain ⟨other, inside, form⟩ := ih read member
        exact ⟨other, List.mem_cons_of_mem _ inside, form⟩
      · rename_i item first
        obtain ⟨further, readRest, rfl⟩ := map_eq_ok read
        rcases List.mem_cons.mp member with rfl | later
        · exact ⟨row, List.mem_cons_self, readLine_eq_ok_iff.mp first⟩
        · obtain ⟨other, inside, form⟩ := ih readRest later
          exact ⟨other, List.mem_cons_of_mem _ inside, form⟩

theorem mem_intercalate {separator token : Token} (inside : row ∈ rows) (member : token ∈ row) :
    token ∈ [separator].intercalate rows := by
  induction rows with
  | nil => cases inside
  | cons first rest ih =>
      by_cases last : rest = []
      · subst last
        rw [List.intercalate_singleton, ← List.mem_singleton.mp inside]
        exact member
      · rw [List.intercalate_cons_of_ne_nil last]
        rcases List.mem_cons.mp inside with rfl | later
        · exact List.mem_append_left _ (List.mem_append_left _ member)
        · exact List.mem_append_right _ (ih later)

theorem mem_of_mem_rowsOf {token : Token} (inside : row ∈ rowsOf tokens) (member : token ∈ row) :
    token ∈ tokens := by
  have joined : token ∈ [Token.newline].intercalate (rowsOf tokens) := mem_intercalate inside member
  rw [rowsOf, List.intercalate_splitOn] at joined
  exact List.mem_of_mem_filter joined

theorem isInfix_of_carries {source : String} {token : Token}
    (lexed : Assembly.tokens source = .ok tokens) (member : token ∈ tokens)
    (carries : token.Carries name) : name.toList <:+: source.toList := by
  have lexes : Lexes {} source.toList (lex source) := lexes_iff.mpr rfl
  have inside : (.ok token : LexItem) ∈ lex source := by
    rw [mapM_id_eq_ok_iff.mp lexed]
    exact List.mem_map_of_mem member
  obtain ⟨front, piece, behind, found, parts, spells, located⟩ := lexes.exists_piece inside
  have same : found = .ok token := mapError_eq_ok located.symm
  subst same
  rw [parts]
  cases carries with
  | word =>
      cases spells with
      | word =>
          rw [String.toList_ofList]
          exact ⟨front, behind, List.append_assoc _ _ _⟩
  | labelRef =>
      cases spells with
      | @labelRef text =>
          rw [String.toList_ofList]
          exact ⟨front ++ ['@'], behind, by simp⟩

theorem isInfix_of_mentions {fragment : List Char}
    (alone : read (String.ofList fragment) = .ok [statement])
    (mentions : statement.item.Mentions name) : name.toList <:+: fragment := by
  rw [read] at alone
  cases lexed : Assembly.tokens (String.ofList fragment) with
  | error error =>
      rw [lexed] at alone
      cases alone
  | ok tokens =>
      rw [lexed] at alone
      have said : readLines 1 (rowsOf tokens) = .ok [statement] := mapError_eq_ok alone
      obtain ⟨row, inside, form⟩ := exists_row_of_statement said List.mem_cons_self
      obtain ⟨token, member, carries⟩ := exists_carries_of_form form mentions
      have part := isInfix_of_carries lexed (mem_of_mem_rowsOf inside member) carries
      rwa [String.toList_ofList] at part

section Code

variable {error : CodeError} {symbols : Symbols}

theorem exists_mentions_of_populate_error (failed : ({} : Symbols).populate batch = .error error) :
    ∃ statement ∈ batch, error.line = statement.line ∧
      statement.item.Mentions error.fault.name := by
  obtain ⟨before, statement, after, split, repeats, _⟩ := Symbols.populate_eq_error_iff.mp failed
  refine ⟨statement, by simp [split], ?_⟩
  cases repeats with
  | label => exact ⟨rfl, .label⟩
  | var => exact ⟨rfl, .var⟩

theorem exists_mentions_of_generate_error (populated : ({} : Symbols).populate batch = .ok symbols)
    (failed : symbols.generate batch = .error error) :
    ∃ statement ∈ batch, error.line = statement.line ∧
      statement.item.Mentions error.fault.name := by
  have records := Symbols.records_of_populate populated
  obtain ⟨before, statement, after, split, first, _⟩ :=
    (Symbols.generate_eq_error_iff records).mp failed
  obtain ⟨front, argument, behind, arguments, lacks, _⟩ := first
  have member : argument ∈ statement.item.arguments := by simp [arguments]
  refine ⟨statement, by simp [split], ?_⟩
  cases lacks with
  | label => exact ⟨rfl, .argument member .label⟩
  | var => exact ⟨rfl, .argument member .var⟩

end Code

end Assembly

open Assembly in
/-- A line shows what an error is about: the character that its column leads to, the same error if
there is nothing else, or the name. -/
inductive AssemblyError.ShownBy : AssemblyError → List Char → Prop
  | lexical {fault : LexFault} {line : Nat} {front piece behind : List Char} {first : Char}
      (spells : Spells (.error fault) (first :: piece) behind) :
      ShownBy (.lexical { fault, line, column := 1 + Text.byteLength front })
        (front ++ first :: piece ++ behind)
  | grammar {fault : SyntaxFault} {line : Nat} {fragment : List Char}
      (alone : assemble (String.ofList fragment) = .error (.grammar { fault, line := 1 })) :
      ShownBy (.grammar { fault, line }) fragment
  | code {fault : CodeFault} {line : Nat} {fragment : List Char}
      (part : fault.name.toList <:+: fragment) : ShownBy (.code { fault, line }) fragment

namespace Assembly

theorem read_error_cases {source : String} {error : AssemblyError}
    (failed : read source = .error error) :
    (∃ fault, error = .lexical fault ∧ Assembly.tokens source = .error fault) ∨
      ∃ fault, error = .grammar fault := by
  rw [read] at failed
  cases lexed : Assembly.tokens source with
  | error fault =>
      rw [lexed] at failed
      cases failed
      exact .inl ⟨fault, rfl, rfl⟩
  | ok tokens =>
      rw [lexed] at failed
      cases said : statements tokens with
      | error fault =>
          simp only [said, Except.mapError, bind, Except.bind] at failed
          cases failed
          exact .inr ⟨fault, rfl⟩
      | ok batch =>
          simp only [said, Except.mapError, bind, Except.bind] at failed
          cases failed

theorem ofSource_error_cases {source : String} {error : AssemblyError}
    (failed : Listing.ofSource source = .error error) :
    read source = .error error ∨ ∃ batch fault, read source = .ok batch ∧ error = .code fault ∧
      ∃ statement ∈ batch, fault.line = statement.line ∧
        statement.item.Mentions fault.fault.name := by
  rw [Listing.ofSource] at failed
  cases found : read source with
  | error other =>
      rw [found] at failed
      cases failed
      exact .inl rfl
  | ok batch =>
      rw [found] at failed
      cases populated : ({} : Symbols).populate batch with
      | error fault =>
          simp only [populated, Except.mapError, bind, Except.bind] at failed
          cases failed
          exact .inr ⟨batch, fault, rfl, rfl, exists_mentions_of_populate_error populated⟩
      | ok symbols =>
          cases generated : symbols.generate batch with
          | error fault =>
              simp only [populated, generated, Except.mapError, bind, Except.bind] at failed
              cases failed
              exact .inr ⟨batch, fault, rfl, rfl,
                exists_mentions_of_generate_error populated generated⟩
          | ok words =>
              simp only [populated, generated, Except.mapError, bind, Except.bind] at failed
              cases failed

theorem shownBy_of_read_error {fragment : List Char} {error : AssemblyError}
    (alone : read (String.ofList fragment) = .error (error.atLine 1)) : error.ShownBy fragment := by
  cases error with
  | lexical error =>
      rcases read_error_cases alone with ⟨_, ⟨⟩, lexed⟩ | ⟨_, ⟨⟩⟩
      obtain ⟨front, piece, behind, rfl, spells, line, column⟩ := exists_piece_of_error lexed
      have sameLine : '\n' ∉ front := by
        rw [← List.count_eq_zero]
        simp only at line
        omega
      obtain ⟨fault, number, place⟩ := error
      obtain ⟨first, rest, rfl⟩ := List.exists_cons_of_ne_nil spells.ne_nil
      have begins : place = 1 + Text.byteLength front := column sameLine
      rw [begins, ← List.append_assoc]
      exact .lexical spells
  | grammar error =>
      refine .grammar ?_
      rw [assemble, Listing.ofSource, alone]
      rfl
  | code error => rcases read_error_cases alone with ⟨_, ⟨⟩, _⟩ | ⟨_, ⟨⟩⟩

/-- Every error of a text has its line, which shows what it is about. -/
theorem exists_shownBy {source : String} {error : AssemblyError}
    (failed : Listing.ofSource source = .error error) :
    ∃ fragment, Text.LineAt source.toList error.line fragment ∧ fragment ≠ [] ∧
      error.ShownBy fragment := by
  have notEmpty {fragment : List Char} (some : read (String.ofList fragment) ≠ .ok []) :
      fragment ≠ [] := by
    intro empty
    rw [empty] at some
    exact some read_empty
  rw [← String.ofList_toList (s := source)] at failed
  rcases ofSource_error_cases failed with fails | ⟨batch, fault, found, rfl, said⟩
  · obtain ⟨fragment, place, alone⟩ := exists_fragment_of_error fails
    exact ⟨fragment, place, notEmpty (by simp [alone]), shownBy_of_read_error alone⟩
  · obtain ⟨statement, member, same, mentions⟩ := said
    obtain ⟨fragment, place, alone⟩ := exists_fragment_of_statement found member
    have part : fault.fault.name.toList <:+: fragment := isInfix_of_mentions alone mentions
    rw [AssemblyError.line, same]
    exact ⟨fragment, place, notEmpty (by simp [alone]), .code part⟩

end Assembly

end Intcode
