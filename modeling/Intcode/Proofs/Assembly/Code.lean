import Intcode.Proofs.Assembly.Image

namespace Intcode.Assembly

namespace Item

/-- Do two items declare the same name? A label and a variable never do. -/
def Clashes : Item → Item → Prop
  | label name, label other => name = other
  | var name _, var other _ => name = other
  | _, _ => False

end Item

namespace Layout

/-- The index of the first item behind an index that takes space, or else the one behind
everything. -/
def landing (items : List Item) (index : Nat) : Nat :=
  index + 1 + (items.drop (index + 1)).findIdx (0 < ·.width)

/-- The word that an argument is passed as. -/
inductive Emits (items : List Item) : Argument → Word → Prop
  | number {value : Word} : Emits items (.number value) value
  | label {name : String} {declared : Nat} (stands : items[declared]? = some (.label name)) :
      Emits items (.label name) (Int64.ofNat (addressOf items (landing items declared)))
  | var {name : String} {initial : Word} {declared : Nat}
      (stands : items[declared]? = some (.var name initial)) :
      Emits items (.var name) (Int64.ofNat (addressOf items declared))

/-- The words that an item takes up. -/
inductive Fills (items : List Item) : Item → List Word → Prop
  | label {name : String} : Fills items (.label name) []
  | var {name : String} {initial : Word} : Fills items (.var name initial) [initial]
  | instruction {opcode : Opcode} {slots : Vector Argument maxArity} {operands : List Word}
      (emit : List.Forall₂ (Emits items) (Item.instruction opcode slots).arguments operands) :
      Fills items (.instruction opcode slots)
        (InstructionWord.encode opcode
          ((Item.instruction opcode slots).arguments.map Argument.isImmediate) :: operands)

variable {items : List Item} {item : Item} {index : Nat} {argument : Argument}

theorem place_add (index count : Nat) :
    place items (index + count) =
      place items index + (((items.drop index).take count).map Item.width).sum := by
  simp only [place, List.take_add, List.map_append, List.sum_append]

theorem addressOf_landing {name : String} (stands : items[index]? = some (.label name)) :
    addressOf items (landing items index) = addressOf items index := by
  have empty : (((items.drop (index + 1)).take
      ((items.drop (index + 1)).findIdx (0 < ·.width))).map Item.width).sum = 0 := by
    rw [List.sum_eq_zero_iff_forall_eq_nat]
    intro width member
    obtain ⟨item, passed, rfl⟩ := List.mem_map.mp member
    obtain ⟨offset, inside, rfl⟩ := List.mem_take_iff_getElem.mp passed
    have fails := List.not_of_lt_findIdx (Nat.lt_of_lt_of_le inside (Nat.min_le_left _ _))
    simpa using fails
  rw [addressOf, landing, place_add, empty, place_succ stands]
  rfl

theorem emits_wordOf (resolved : Resolves items argument) :
    Emits items argument (wordOf items argument) := by
  cases argument with
  | number value => exact .number
  | label name =>
      obtain ⟨address, known⟩ := Option.isSome_iff_exists.mp resolved
      obtain ⟨declared, _, stands, rfl⟩ := labelAt?_eq_some known
      have word : wordOf items (.label name) = Int64.ofNat (addressOf items declared) := by
        rw [wordOf, known, Option.getD_some]
      rw [word, ← addressOf_landing stands]
      exact .label stands
  | var name =>
      obtain ⟨address, known⟩ := Option.isSome_iff_exists.mp resolved
      obtain ⟨declared, initial, _, stands, rfl⟩ := varAt?_eq_some known
      have word : wordOf items (.var name) = Int64.ofNat (addressOf items declared) := by
        rw [wordOf, known, Option.getD_some]
      rw [word]
      exact .var stands

theorem fills_cells (resolved : ∀ argument ∈ item.arguments, Resolves items argument) :
    Fills items item (cells items item) := by
  cases item with
  | label name => exact .label
  | var name initial => exact .var
  | instruction opcode slots =>
      refine .instruction (List.forall₂_map_right_iff.mpr (List.forall₂_same.mpr ?_))
      exact fun argument member => emits_wordOf (resolved argument member)

theorem take_drop_words (stands : items[index]? = some item) :
    ((words items).drop (addressOf items index)).take item.width = cells items item := by
  apply List.ext_getElem?
  intro offset
  rw [List.getElem?_take, List.getElem?_drop]
  split <;> rename_i inside
  · exact words_getElem? stands inside
  · rw [List.getElem?_eq_none]
    rw [length_cells]
    exact Nat.not_lt.mp inside

end Layout

namespace Symbols

open Layout

variable {symbols after : Symbols} {items : List Item} {item : Item} {statement : Statement}
  {batch : List Statement}

theorem mem_of_recorded {places : Std.ExtTreeMap String Nat} {check : Item → Bool} {name : String}
    (recorded : places[name]? = firstPlace? items check) (member : item ∈ items)
    (passes : check item = true) : name ∈ places := by
  rw [Std.ExtTreeMap.mem_iff_isSome_getElem?, recorded, firstPlace?, Option.isSome_map,
    List.findIdx?_isSome]
  exact List.any_eq_true.mpr ⟨item, member, passes⟩

theorem not_clashes_of_declare (records : Records symbols items)
    (declared : symbols.declare statement = .ok after) (member : item ∈ items) :
    ¬ item.Clashes statement.item := by
  intro clashes
  simp only [declare] at declared
  cases said : statement.item with
  | label name =>
      simp only [said] at declared clashes
      have known : name ∈ symbols.labels := by
        refine mem_of_recorded (records.labels name) member (marks_eq_true.mpr ?_)
        cases item <;> cases clashes
        rfl
      rw [if_pos known] at declared
      cases declared
  | var name initial =>
      simp only [said] at declared clashes
      have known : name ∈ symbols.vars := by
        refine mem_of_recorded (records.vars name) member (declares_eq_true.mpr ?_)
        cases item <;> cases clashes
        exact ⟨_, rfl⟩
      rw [if_pos known] at declared
      cases declared
  | instruction opcode slots =>
      rw [said] at clashes
      cases item <;> cases clashes

/-- No name is declared twice in what populates a symbol table. -/
theorem pairwise_of_populate (populated : ({} : Symbols).populate batch = .ok after) :
    (batch.map Statement.item).Pairwise fun item other => ¬ item.Clashes other := by
  induction batch using List.reverseRecOn generalizing after with
  | nil => exact .nil
  | append_singleton batch statement ih =>
      obtain ⟨between, before, declared⟩ := populate_snoc populated
      rw [List.map_append, List.map_singleton, List.pairwise_append]
      refine ⟨ih before, List.pairwise_singleton _ _, ?_⟩
      intro item member other last
      rw [List.mem_singleton.mp last]
      exact not_clashes_of_declare (records_of_populate before) declared member

end Symbols

open Layout

/-- In the code of statements every statement fills the cells from its address on, as many as it is
wide, behind the jump to the first instruction that there is if there are variables. Every name
that is passed is declared just once. -/
theorem generated_code_is_laid_out {batch : List Statement} {symbols : Symbols} {code : List Word}
    (populated : ({} : Symbols).populate batch = .ok symbols)
    (generated : symbols.generate batch = .ok code) :
    let items := batch.map Statement.item
    symbols.headerSize = headerSize items ∧
      code.length = symbols.headerSize + (items.map Item.width).sum ∧
      (∀ index item, items[index]? = some item →
        Fills items item ((code.drop (addressOf items index)).take item.width)) ∧
      (items.Pairwise fun item other => ¬ item.Clashes other) ∧
      (items.any Item.isVar = true →
        code.take 3 = [1105, 1, Int64.ofNat (addressOf items (begins items))]) := by
  intro items
  have records : symbols.Records items := Symbols.records_of_populate populated
  obtain ⟨resolved, rfl⟩ := records.generate rfl generated
  refine ⟨records.headerSize, ?_, ?_, Symbols.pairwise_of_populate populated, ?_⟩
  · rw [length_words, size, addressOf, place, List.take_length, records.headerSize]
  · intro index item stands
    rw [take_drop_words stands]
    exact fills_cells (resolved item (List.mem_of_getElem? stands))
  · intro declares
    simp only [words, header, headerSize, declares]
    rfl

/-- A jump over a variable to the end of the code. The name in its last slot means nothing. -/
def detour : List Statement :=
  [⟨1, .label "start"⟩, ⟨2, .ofArguments .input [.var "x"]⟩, ⟨4, .var "x" (-5)⟩,
    ⟨5, .instruction .jumpTrue #v[.var "x", .label "done", .label "nowhere"]⟩, ⟨6, .var "last" 9⟩,
    ⟨7, .label "done"⟩]

theorem detour_is_laid_out :
    ∃ symbols, ({} : Symbols).populate detour = .ok symbols ∧
      symbols.generate detour = .ok [1105, 1, 3, 3, 5, -5, 1005, 5, 10, 9] ∧
      symbols.headerSize = 3 ∧
      Fills (detour.map Statement.item)
        (.instruction .jumpTrue #v[.var "x", .label "done", .label "nowhere"]) [1005, 5, 10] := by
  have generates : (({} : Symbols).populate detour >>= fun symbols => symbols.generate detour) =
      .ok [1105, 1, 3, 3, 5, -5, 1005, 5, 10, 9] := by decide +kernel
  cases populated : ({} : Symbols).populate detour with
  | error error =>
      rw [populated] at generates
      cases generates
  | ok symbols =>
      rw [populated] at generates
      have laidOut := generated_code_is_laid_out populated generates
      exact ⟨symbols, rfl, generates, laidOut.1, laidOut.2.2.1 3 _ rfl⟩

end Intcode.Assembly
