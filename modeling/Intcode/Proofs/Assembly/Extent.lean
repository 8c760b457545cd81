import Intcode.Proofs.Assembly.Grammar

namespace Intcode.Assembly

theorem length_le_utf8ByteSize (text : String) : text.length ≤ text.utf8ByteSize := by
  induction text using String.push_induction with
  | empty => simp
  | push text char ih =>
      have positive := char.utf8Size_pos
      rw [String.length_push, String.utf8ByteSize_push]
      omega

namespace Lexeme

/-- A token is written with as many characters as its extent, and all of them are there. -/
def Covers (rest : List Char) (lexeme : Lexeme) : Prop :=
  ∀ token, lexeme.item = .ok token →
    token.extent ≤ lexeme.text.length ∧ lexeme.text.length ≤ rest.length + 1

variable {first : Char} {rest text : List Char} {token : Token}

theorem covers_ok (written : token.extent ≤ text.length) (inside : text.length ≤ rest.length + 1) :
    Covers rest { text, item := .ok token } := by
  intro other same
  cases same
  exact ⟨written, inside⟩

theorem covers_error {fault : LexFault} : Covers rest { text, item := .error fault } := by
  intro token same
  cases same

theorem run_length_le (first : Char) (rest : List Char) :
    1 ≤ (run first rest).length ∧ (run first rest).length ≤ rest.length + 1 := by
  have shorter := (List.takeWhile_prefix isWordChar (l := rest)).length_le
  simp only [run, List.length_cons]
  omega

theorem covers_leading (first : Char) (rest : List Char) : Covers rest (leading first rest) := by
  have single : [first].length ≤ rest.length + 1 := by simp
  obtain ⟨nonempty, inside⟩ := run_length_le first rest
  unfold leading
  split
  · exact covers_ok (Nat.le_refl 1) single
  split
  · exact covers_ok (Nat.le_refl 1) single
  split
  · exact covers_ok (Nat.le_refl 1) single
  split
  · have shorter := (List.takeWhile_prefix (· ≠ '\n') (l := rest)).length_le
    exact covers_ok (by simp [Token.extent]) (by simp only [List.length_cons]; omega)
  split
  · simp only
    split
    · exact covers_error
    · exact covers_ok nonempty inside
  split
  · rename_i arrow
    simp only [Bool.and_eq_true, decide_eq_true_eq] at arrow
    cases rest with
    | nil => cases arrow.2
    | cons second further =>
        exact covers_ok (by simp [Token.extent])
          (by simp only [List.length_cons, List.length_nil]; omega)
  split
  · unfold ofNumber
    split
    · exact covers_ok nonempty inside
    · exact covers_error
  split
  · refine covers_ok ?_ inside
    simp only [Token.extent, String.length_ofList]
    omega
  · exact covers_error

end Lexeme

theorem extent_le_length {line column : Nat} {text : List Char} {tokens : List Token}
    (lexed : lexFrom line column text = tokens.map .ok) : extent tokens ≤ text.length := by
  fun_induction lexFrom line column text generalizing tokens with
  | case1 =>
      cases tokens with
      | nil => exact Nat.zero_le _
      | cons token rest => cases lexed
  | case2 line column first rest gap ih =>
      have shorter := ih lexed
      simp only [List.length_cons]
      omega
  | case3 =>
      cases tokens <;> cases lexed
  | case4 line column first rest gap lexeme remaining item
  | case5 line column first rest gap lexeme remaining _ _ item =>
      rename_i ih
      cases tokens with
      | nil => cases lexed
      | cons token further =>
          rw [List.map_cons, List.cons.injEq] at lexed
          obtain ⟨same, lexed⟩ := lexed
          cases same
          have shorter := ih lexed
          obtain ⟨enough, inside⟩ := Lexeme.covers_leading first rest _ item
          simp only [remaining, lexeme, List.length_drop] at shorter
          simp only [extent_cons, List.length_cons]
          omega

/-- What a text says is proper, and needs no more cells than the text has bytes. -/
theorem read_spec {source : String} {rows : List Statement} (said : read source = .ok rows) :
    (∀ statement ∈ rows, statement.item.Proper) ∧
      (rows.map fun statement => statement.item.cost).sum ≤ source.utf8ByteSize := by
  simp only [read, bind, Except.bind] at said
  split at said
  · cases said
  · rename_i found lexed
    obtain ⟨proper, enough⟩ := statements_spec (mapError_eq_ok said)
    have shorter := extent_le_length (mapM_id_eq_ok_iff.mp (mapError_eq_ok lexed))
    have bytes := length_le_utf8ByteSize source
    rw [String.length_toList] at shorter
    exact ⟨proper, by omega⟩

end Intcode.Assembly
