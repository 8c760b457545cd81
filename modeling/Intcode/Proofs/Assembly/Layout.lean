import Intcode.Assembly
import Mathlib.Algebra.Order.Ring.Nat

namespace Intcode.Assembly

namespace Item

def isVar : Item → Bool
  | var _ _ => true
  | _ => false

def isInstruction : Item → Bool
  | instruction _ _ => true
  | _ => false

def marks (name : String) : Item → Bool
  | label other => other = name
  | _ => false

def declares (name : String) : Item → Bool
  | var other _ => other = name
  | _ => false

def initial? : Item → Option Word
  | var _ initial => some initial
  | _ => none

end Item

namespace Layout

/-- The number of cells of the items in front of an index. -/
def place (items : List Item) (index : Nat) : Nat :=
  ((items.take index).map Item.width).sum

def headerSize (items : List Item) : Nat :=
  if items.any Item.isVar then 3 else 0

def addressOf (items : List Item) (index : Nat) : Nat :=
  headerSize items + place items index

def size (items : List Item) : Nat :=
  addressOf items items.length

/-- The index of the first instruction, or else the one behind everything. -/
def begins (items : List Item) : Nat :=
  (items.findIdx? Item.isInstruction).getD items.length

def labelIndex? (items : List Item) (name : String) : Option Nat :=
  items.findIdx? (Item.marks name)

def varIndex? (items : List Item) (name : String) : Option Nat :=
  items.findIdx? (Item.declares name)

def labelAt? (items : List Item) (name : String) : Option Nat :=
  (labelIndex? items name).map (addressOf items)

def varAt? (items : List Item) (name : String) : Option Nat :=
  (varIndex? items name).map (addressOf items)

def initial? (items : List Item) (name : String) : Option Word :=
  (varIndex? items name).bind fun index => items[index]?.bind Item.initial?

/-- What an argument means to an instruction when the variables have certain values. -/
def valueOf (items : List Item) (store : String → Word) : Argument → Word
  | .number value => value
  | .label name => Int64.ofNat ((labelAt? items name).getD 0)
  | .var name => store name

variable {items : List Item} {item other : Item} {index later : Nat} {name : String}

theorem place_succ (found : items[index]? = some item) :
    place items (index + 1) = place items index + item.width := by
  simp only [place, List.take_add_one, found, Option.toList_some, List.map_append, List.map_cons,
    List.map_nil, List.sum_append, List.sum_singleton]

theorem place_append (more : List Item) (inside : index ≤ items.length) :
    place (items ++ more) index = place items index := by
  simp only [place, List.take_append_of_le_length inside]

theorem place_mono (ordered : index ≤ later) : place items index ≤ place items later := by
  obtain ⟨extra, rfl⟩ := Nat.exists_eq_add_of_le ordered
  simp only [place, List.take_add, List.map_append, List.sum_append]
  omega

theorem place_add_width_le (found : items[index]? = some item) (ordered : index < later) :
    place items index + item.width ≤ place items later := by
  rw [← place_succ found]
  exact place_mono ordered

theorem addressOf_succ (found : items[index]? = some item) :
    addressOf items (index + 1) = addressOf items index + item.width := by
  rw [addressOf, place_succ found, addressOf]
  omega

/-- Cells of different items are different cells. -/
theorem addressOf_add_ne {offset otherOffset : Nat} (found : items[index]? = some item)
    (foundOther : items[later]? = some other) (different : index ≠ later)
    (inside : offset < item.width) (insideOther : otherOffset < other.width) :
    addressOf items index + offset ≠ addressOf items later + otherOffset := by
  unfold addressOf
  rcases Nat.lt_or_gt_of_ne different with before | behind
  · have apart := place_add_width_le found before
    omega
  · have apart := place_add_width_le foundOther behind
    omega

theorem addressOf_add_lt {offset : Nat} (found : items[index]? = some item)
    (inside : offset < item.width) : addressOf items index + offset < size items := by
  have below : index < items.length := (List.getElem?_eq_some_iff.mp found).1
  have apart := place_add_width_le found below
  unfold size addressOf
  omega

theorem addressOf_le_size (index : Nat) : addressOf items index ≤ size items := by
  by_cases inside : index ≤ items.length
  · have ordered : place items index ≤ place items items.length := place_mono inside
    unfold size addressOf
    omega
  · have whole : items.take index = items := List.take_of_length_le (by omega)
    simp only [size, addressOf, place, whole, List.take_length, Nat.le_refl]

theorem marks_eq_true : Item.marks name item = true ↔ item = .label name := by
  cases item <;> simp [Item.marks]

theorem declares_eq_true : Item.declares name item = true ↔ ∃ initial, item = .var name initial := by
  cases item <;> simp [Item.declares]

theorem getElem?_of_labelIndex? (found : labelIndex? items name = some index) :
    items[index]? = some (.label name) := by
  obtain ⟨inside, marked, _⟩ := List.findIdx?_eq_some_iff_getElem.mp found
  rw [List.getElem?_eq_getElem inside, marks_eq_true.mp marked]

theorem getElem?_of_varIndex? (found : varIndex? items name = some index) :
    ∃ initial, items[index]? = some (.var name initial) := by
  obtain ⟨inside, declared, _⟩ := List.findIdx?_eq_some_iff_getElem.mp found
  obtain ⟨initial, same⟩ := declares_eq_true.mp declared
  exact ⟨initial, by rw [List.getElem?_eq_getElem inside, same]⟩

theorem labelAt?_eq_some {address : Nat} (found : labelAt? items name = some address) :
    ∃ index, labelIndex? items name = some index ∧ items[index]? = some (.label name) ∧
      address = addressOf items index := by
  obtain ⟨index, foundIndex, rfl⟩ := Option.map_eq_some_iff.mp found
  exact ⟨index, foundIndex, getElem?_of_labelIndex? foundIndex, rfl⟩

theorem varAt?_eq_some {address : Nat} (found : varAt? items name = some address) :
    ∃ index initial, varIndex? items name = some index ∧
      items[index]? = some (.var name initial) ∧ address = addressOf items index := by
  obtain ⟨index, foundIndex, rfl⟩ := Option.map_eq_some_iff.mp found
  obtain ⟨initial, stands⟩ := getElem?_of_varIndex? foundIndex
  exact ⟨index, initial, foundIndex, stands, rfl⟩

theorem initial?_eq_some {address : Nat} (found : varAt? items name = some address) :
    ∃ index initial, items[index]? = some (.var name initial) ∧
      initial? items name = some initial ∧ address = addressOf items index := by
  obtain ⟨index, initial, foundIndex, stands, rfl⟩ := varAt?_eq_some found
  refine ⟨index, initial, stands, ?_, rfl⟩
  simp only [initial?, foundIndex, Option.bind_some, stands, Item.initial?]

/-- Different variables have different cells. -/
theorem varAt?_injective {other : String} {address : Nat} (found : varAt? items name = some address)
    (foundOther : varAt? items other = some address) : name = other := by
  obtain ⟨index, initial, _, stands, same⟩ := varAt?_eq_some found
  obtain ⟨otherIndex, otherInitial, _, otherStands, otherSame⟩ := varAt?_eq_some foundOther
  by_cases equal : index = otherIndex
  · subst otherIndex
    rw [stands] at otherStands
    cases otherStands
    rfl
  · have apart := addressOf_add_ne stands otherStands equal Nat.zero_lt_one Nat.zero_lt_one
    omega

end Layout

end Intcode.Assembly
