import Intcode.Proofs.Assembly.Extent
import Intcode.Proofs.Assembly.Symbols
import Intcode.Proofs.Memory

namespace Intcode.Assembly

namespace Layout

variable {items : List Item}

/-- Is the name that an argument mentions declared? -/
def Resolves (items : List Item) : Argument → Prop
  | .number _ => True
  | .label name => (labelAt? items name).isSome
  | .var name => (varAt? items name).isSome

def wordOf (items : List Item) : Argument → Word
  | .number value => value
  | .label name => Int64.ofNat ((labelAt? items name).getD 0)
  | .var name => Int64.ofNat ((varAt? items name).getD 0)

def cells (items : List Item) (item : Item) : List Word :=
  match item with
  | .label _ => []
  | .var _ initial => [initial]
  | .instruction opcode _ =>
      InstructionWord.encode opcode (item.arguments.map Argument.isImmediate) ::
        item.arguments.map (wordOf items)

def header (items : List Item) : List Word :=
  if headerSize items = 0 then []
  else [InstructionWord.encode .jumpTrue [true, true], 1, Int64.ofNat (addressOf items (begins items))]

def words (items : List Item) : List Word :=
  header items ++ (items.map (cells items)).flatten

theorem length_arguments (opcode : Opcode) (slots : Vector Argument maxArity) :
    (Item.instruction opcode slots).arguments.length = opcode.arity := by
  have room := Opcode.arity_le opcode
  simp only [Item.arguments, List.length_take, Vector.length_toList]
  omega

theorem length_cells (items : List Item) (item : Item) : (cells items item).length = item.width := by
  cases item with
  | label name => rfl
  | var name initial => rfl
  | instruction opcode slots =>
      simp only [cells, List.length_cons, List.length_map, length_arguments, Item.width,
        Opcode.width]

theorem length_header (items : List Item) : (header items).length = headerSize items := by
  by_cases declares : items.any Item.isVar = true <;> simp [header, headerSize, declares]

theorem length_flatten_take (items : List Item) (index : Nat) :
    (((items.take index).map (cells items)).flatten).length = place items index := by
  simp only [List.length_flatten, List.map_map, place]
  congr 1
  apply List.map_congr_left
  intro item _
  exact length_cells items item

theorem length_words (items : List Item) : (words items).length = size items := by
  have whole := length_flatten_take items items.length
  rw [List.take_length] at whole
  simp only [words, List.length_append, length_header, whole, size, addressOf]

/-- The cells of an item stand together, from its address on. -/
theorem words_getElem? {index offset : Nat} {item : Item} (found : items[index]? = some item)
    (inside : offset < item.width) :
    (words items)[addressOf items index + offset]? = (cells items item)[offset]? := by
  have split : items.map (cells items) =
      (items.take index).map (cells items) ++ cells items item ::
        (items.drop (index + 1)).map (cells items) := by
    obtain ⟨below, same⟩ := List.getElem?_eq_some_iff.mp found
    have parts := List.take_append_drop index items
    rw [List.drop_eq_getElem_cons below, same] at parts
    rw [← List.map_cons, ← List.map_append, parts]
  have before := length_flatten_take items index
  have here := length_cells items item
  simp only [words, addressOf, split, List.flatten_append, List.flatten_cons]
  rw [Nat.add_assoc, ← length_header items, List.getElem?_append_right (Nat.le_add_right _ _),
    Nat.add_sub_cancel_left, List.getElem?_append_right (by omega), before,
    Nat.add_sub_cancel_left, List.getElem?_append_left (by omega)]

end Layout

namespace Symbols

open Layout

variable {symbols : Symbols} {items : List Item}

theorem Records.argumentWord (records : Records symbols items) {line : Nat} {argument : Argument}
    {word : Word} (known : symbols.argumentWord line argument = .ok word) :
    Resolves items argument ∧ word = wordOf items argument := by
  cases argument with
  | number value =>
      cases known
      exact ⟨trivial, rfl⟩
  | label name =>
      simp only [Symbols.argumentWord, records.labels, firstPlace?] at known
      cases found : items.findIdx? (Item.marks name) with
      | none =>
          simp only [found] at known
          cases known
      | some index =>
          simp only [found, Option.map_some] at known
          cases known
          have address : labelAt? items name = some (addressOf items index) := by
            simp only [labelAt?, labelIndex?, found, Option.map_some]
          simp only [Resolves, wordOf, address, Option.isSome_some, Option.getD_some,
            Symbols.address, records.headerSize, addressOf, Nat.add_comm, true_and]
  | var name =>
      simp only [Symbols.argumentWord, records.vars, firstPlace?] at known
      cases found : items.findIdx? (Item.declares name) with
      | none =>
          simp only [found] at known
          cases known
      | some index =>
          simp only [found, Option.map_some] at known
          cases known
          have address : varAt? items name = some (addressOf items index) := by
            simp only [varAt?, varIndex?, found, Option.map_some]
          simp only [Resolves, wordOf, address, Option.isSome_some, Option.getD_some,
            Symbols.address, records.headerSize, addressOf, Nat.add_comm, true_and]

theorem Records.cells (records : Records symbols items) {statement : Statement} {row : List Word}
    (known : symbols.cells statement = .ok row) :
    (∀ argument ∈ statement.item.arguments, Resolves items argument) ∧
      row = Layout.cells items statement.item := by
  unfold Symbols.cells at known
  cases item : statement.item with
  | label name =>
      simp only [item] at known
      cases known
      exact ⟨by simp [Item.arguments], rfl⟩
  | var name initial =>
      simp only [item] at known
      cases known
      exact ⟨by simp [Item.arguments], rfl⟩
  | instruction opcode slots =>
      simp only [item] at known
      obtain ⟨tail, read, rfl⟩ := map_eq_ok known
      obtain ⟨resolved, rfl⟩ := mapM_eq_map records.argumentWord read
      exact ⟨resolved, rfl⟩

theorem Records.header (records : Records symbols items) : symbols.header = Layout.header items := by
  have whole : symbols.address symbols.count = Int64.ofNat (size items) := by
    simp only [Symbols.address, records.count, records.headerSize, size, addressOf, Nat.add_comm]
  unfold Symbols.header Layout.header
  rw [records.headerSize]
  split
  · rfl
  · simp only [records.codeStart, firstPlace?, begins]
    cases found : items.findIdx? Item.isInstruction with
    | none => simp only [Option.map_none, Option.getD_none, whole, size]
    | some index =>
        simp only [Option.map_some, Option.getD_some, Symbols.address, records.headerSize, addressOf,
          Nat.add_comm]

theorem Records.generate (records : Records symbols items) {batch : List Statement}
    {code : List Word} (stand : batch.map Statement.item = items)
    (generated : symbols.generate batch = .ok code) :
    (∀ item ∈ items, ∀ argument ∈ item.arguments, Resolves items argument) ∧ code = words items := by
  obtain ⟨rows, read, rfl⟩ := map_eq_ok generated
  obtain ⟨resolved, rfl⟩ := mapM_eq_map records.cells read
  subst stand
  refine ⟨?_, ?_⟩
  · intro item member
    obtain ⟨statement, stands, rfl⟩ := List.mem_map.mp member
    exact resolved statement stands
  · rw [records.header, words, List.map_map]
    rfl

end Symbols

/-- A program with the layout of its items. -/
structure Assembled (items : List Item) (program : Program) : Prop where
  words : program.words = Layout.words items
  proper : ∀ item ∈ items, item.Proper
  resolved : ∀ item ∈ items, ∀ argument ∈ item.arguments, Layout.Resolves items argument
  fits : Layout.size items < 2 ^ 63

theorem size_le_cost (items : List Item) : Layout.size items ≤ (items.map Item.cost).sum := by
  simp only [Layout.size, Layout.addressOf, Layout.headerSize, Layout.place, List.take_length]
  induction items with
  | nil => exact Nat.le_refl 0
  | cons item rest ih =>
      simp only [List.any_cons, List.map_cons, List.sum_cons, Item.cost]
      by_cases here : item.isVar = true
      · simp only [here, Bool.true_or, if_true]
        split at ih <;> omega
      · simp only [here, Bool.false_or, Bool.false_eq_true, if_false]
        omega

/-- No cell is written with less than a byte of the text, so the addresses are words as long
as the text has fewer than `2 ^ 63` bytes, as every text in memory has. -/
theorem assembled_of_assemble {source : String} {program : Program}
    (accepted : assemble source = .ok program) (room : source.utf8ByteSize < 2 ^ 63) :
    ∃ statements, read source = .ok statements ∧
      Assembled (statements.map Statement.item) program := by
  obtain ⟨listing, built, rfl⟩ := map_eq_ok accepted
  simp only [Listing.ofSource, bind, Except.bind] at built
  split at built
  · cases built
  rename_i statements said
  split at built
  · cases built
  rename_i symbols populated
  split at built
  · cases built
  rename_i code generated
  cases built
  have records := Symbols.records_of_populate (mapError_eq_ok populated)
  obtain ⟨resolved, rfl⟩ := records.generate rfl (mapError_eq_ok generated)
  obtain ⟨proper, enough⟩ := read_spec said
  refine ⟨statements, said, rfl, ?_, resolved, ?_⟩
  · intro item member
    obtain ⟨statement, stands, rfl⟩ := List.mem_map.mp member
    exact proper statement stands
  · have cost := size_le_cost (statements.map Statement.item)
    rw [List.map_map] at cost
    exact Nat.lt_of_le_of_lt (Nat.le_trans cost enough) room

end Intcode.Assembly
