import Intcode.Proofs.Assembly.Layout
import Intcode.Proofs.Results

namespace Intcode.Assembly

/-- Only a variable can be the destination of a result. -/
def Argument.Fits : ParamKind → Argument → Prop
  | .value, _ => True
  | .destination, .var _ => True
  | .destination, _ => False

def Item.Proper (item : Item) : Prop :=
  match item with
  | .instruction opcode _ => List.Forall₂ Argument.Fits opcode.params item.arguments
  | _ => True

/-- The least number of characters a token is written with. -/
def Token.extent : Token → Nat
  | .word name => max 1 name.length
  | _ => 1

def extent (tokens : List Token) : Nat :=
  (tokens.map Token.extent).sum

/-- The cells a program needs for an item, those of the header counted with every variable. -/
def Item.cost (item : Item) : Nat :=
  item.width + if item.isVar then 3 else 0

variable {tokens : List Token} {item : Item}

@[simp] theorem extent_cons (token : Token) (rest : List Token) :
    extent (token :: rest) = token.extent + extent rest := by
  simp only [extent, List.map_cons, List.sum_cons]

theorem Token.extent_pos (token : Token) : 1 ≤ token.extent := by
  cases token <;> simp only [Token.extent] <;> omega

theorem readArguments_spec {index : Nat} {kinds : List ParamKind} {arguments : List Argument}
    (read : readArguments index kinds tokens = .ok arguments) :
    List.Forall₂ Argument.Fits kinds arguments ∧ kinds.length ≤ extent tokens := by
  fun_induction readArguments index kinds tokens generalizing arguments with
  | case1 =>
      cases read
      exact ⟨.nil, Nat.zero_le _⟩
  | case3 _ _ _ _ ih | case4 _ _ _ _ ih | case5 _ _ _ _ ih =>
      obtain ⟨rest, readRest, rfl⟩ := map_eq_ok read
      obtain ⟨fits, enough⟩ := ih readRest
      refine ⟨.cons trivial fits, ?_⟩
      simp only [List.length_cons, extent_cons, Token.extent]
      omega
  | case8 _ _ _ _ ih =>
      obtain ⟨rest, readRest, rfl⟩ := map_eq_ok read
      obtain ⟨fits, enough⟩ := ih readRest
      refine ⟨.cons trivial fits, ?_⟩
      simp only [List.length_cons, extent_cons, Token.extent]
      omega
  | case2 | case6 | case7 | case9 | case10 | case11 => cases read

theorem Opcode.arity_le (opcode : Opcode) : opcode.arity ≤ maxArity := by
  cases opcode <;> decide

/-- The slots of an instruction give back the arguments they were filled with. -/
theorem Item.arguments_ofArguments {opcode : Opcode} {arguments : List Argument}
    (enough : arguments.length = opcode.arity) :
    (Item.ofArguments opcode arguments).arguments = arguments := by
  have room := Opcode.arity_le opcode
  apply List.ext_getElem?
  intro index
  simp only [Item.ofArguments, Item.arguments, List.getElem?_take, Vector.getElem?_toList]
  by_cases inside : index < opcode.arity
  · have below : index < arguments.length := by omega
    have within : index < maxArity := by omega
    simp [inside, within, below]
  · have outside : arguments.length ≤ index := by omega
    simp [inside, outside]

theorem readLine_spec (read : readLine tokens = .ok (some item)) :
    item.Proper ∧ item.cost ≤ extent tokens := by
  unfold readLine at read
  split at read
  · cases read
  · cases read
    exact ⟨trivial, Nat.zero_le _⟩
  · cases read
  · cases read
  · have three : "var".length = 3 := by decide
    split at read <;> cases read <;>
      refine ⟨trivial, ?_⟩ <;>
      simp only [Item.cost, Item.width, Item.isVar, if_true, extent_cons, Token.extent, three] <;>
      omega
  · split at read
    · cases read
    · rename_i opcode _
      obtain ⟨arguments, readRest, same⟩ := map_eq_ok read
      cases same
      obtain ⟨fits, enough⟩ := readArguments_spec readRest
      have count := fits.length_eq
      refine ⟨?_, ?_⟩
      · simp only [Item.Proper, Item.ofArguments]
        rw [← Item.ofArguments, Item.arguments_ofArguments count.symm]
        exact fits
      · have positive := Token.extent_pos (.word ‹_›)
        simp only [Item.cost, Item.ofArguments, Item.width, Item.isVar, Opcode.width, Opcode.arity,
          extent_cons, Bool.false_eq_true, if_false]
        omega
  · cases read

theorem readLines_spec {line : Nat} {lines : List (List Token)} {statements : List Statement}
    (read : readLines line lines = .ok statements) :
    (∀ statement ∈ statements, statement.item.Proper) ∧
      (statements.map fun statement => statement.item.cost).sum ≤ (lines.map extent).sum := by
  induction lines generalizing line statements with
  | nil =>
      cases read
      exact ⟨by simp, Nat.zero_le _⟩
  | cons tokens rest ih =>
      simp only [readLines] at read
      split at read
      · cases read
      · obtain ⟨proper, enough⟩ := ih read
        refine ⟨proper, ?_⟩
        simp only [List.map_cons, List.sum_cons]
        omega
      · rename_i item readItem
        obtain ⟨further, readRest, rfl⟩ := map_eq_ok read
        obtain ⟨proper, enough⟩ := ih readRest
        obtain ⟨properItem, enoughItem⟩ := readLine_spec readItem
        refine ⟨?_, ?_⟩
        · intro statement member
          cases member with
          | head => exact properItem
          | tail _ member => exact proper statement member
        · simp only [List.map_cons, List.sum_cons]
          omega

theorem extent_splitOn (tokens : List Token) (separator : Token) :
    ((tokens.splitOn separator).map extent).sum ≤ extent tokens := by
  rw [List.splitOn_eq_splitOnP]
  induction tokens with
  | nil => simp [extent]
  | cons token rest ih =>
      rw [List.splitOnP_cons_eq_if_modifyHead]
      split
      · have none : extent [] = 0 := rfl
        simp only [List.map_cons, List.sum_cons, extent_cons, none]
        omega
      · obtain ⟨first, others, split⟩ :=
          List.exists_cons_of_ne_nil (List.splitOnP_ne_nil (· == separator) rest)
        rw [split] at ih ⊢
        simp only [List.modifyHead_cons, List.map_cons, List.sum_cons, extent_cons] at ih ⊢
        omega

theorem extent_filter (tokens : List Token) (check : Token → Bool) :
    extent (tokens.filter check) ≤ extent tokens := by
  induction tokens with
  | nil => exact Nat.le_refl _
  | cons token rest ih =>
      rw [List.filter_cons]
      split <;> simp only [extent_cons] <;> omega

theorem statements_spec {rows : List Statement} (read : statements tokens = .ok rows) :
    (∀ statement ∈ rows, statement.item.Proper) ∧
      (rows.map fun statement => statement.item.cost).sum ≤ extent tokens := by
  obtain ⟨proper, enough⟩ := readLines_spec read
  have split := extent_splitOn (tokens.filter fun token => !token.isComment) .newline
  have kept := extent_filter tokens fun token => !token.isComment
  exact ⟨proper, by omega⟩

end Intcode.Assembly
