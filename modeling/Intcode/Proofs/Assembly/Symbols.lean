import Intcode.Proofs.Assembly.Layout
import Mathlib.Data.List.Induction

namespace Intcode.Assembly

namespace Symbols

open Layout

/-- The place of the first item that passes a check. -/
def firstPlace? (items : List Item) (check : Item → Bool) : Option Nat :=
  (items.findIdx? check).map (place items)

structure Records (symbols : Symbols) (items : List Item) : Prop where
  labels : ∀ name, symbols.labels[name]? = firstPlace? items (Item.marks name)
  vars : ∀ name, symbols.vars[name]? = firstPlace? items (Item.declares name)
  codeStart : symbols.codeStart = firstPlace? items Item.isInstruction
  count : symbols.count = place items items.length
  empty : symbols.vars.isEmpty = !items.any Item.isVar

variable {symbols after : Symbols} {items : List Item} {statement : Statement} {name : String}

theorem records_empty : Records {} [] := by
  refine ⟨?_, ?_, rfl, rfl, rfl⟩ <;> intro name <;> simp [firstPlace?]

theorem firstPlace?_snoc (check : Item → Bool) (item : Item) :
    firstPlace? (items ++ [item]) check =
      (firstPlace? items check).or (if check item then some (place items items.length) else none) := by
  simp only [firstPlace?, List.findIdx?_append]
  cases found : items.findIdx? check with
  | some index =>
      have inside := (List.findIdx?_eq_some_iff_getElem.mp found).1
      simp only [Option.some_or, Option.map_some, place_append [item] (Nat.le_of_lt inside)]
  | none =>
      have last : place (items ++ [item]) items.length = place items items.length :=
        place_append [item] (Nat.le_refl items.length)
      cases passes : check item <;> simp [List.findIdx?_cons, passes, last]

theorem place_snoc_length (item : Item) :
    place (items ++ [item]) (items ++ [item]).length = place items items.length + item.width := by
  have stands : (items ++ [item])[items.length]? = some item := by simp
  rw [List.length_append, List.length_singleton, place_succ stands,
    place_append [item] (Nat.le_refl items.length)]

theorem firstPlace?_snoc_other {check : Item → Bool} {item : Item} (fails : check item = false) :
    firstPlace? (items ++ [item]) check = firstPlace? items check := by
  simp only [firstPlace?_snoc, fails, Bool.false_eq_true, if_false, Option.or_none]

/-- Recording a name that is new, for labels and variables alike. -/
theorem getElem?_insert_new {places : Std.ExtTreeMap String Nat} {check : String → Item → Bool}
    {item : Item} (recorded : ∀ other, places[other]? = firstPlace? items (check other))
    (absent : name ∉ places) (passes : ∀ other, check other item = decide (name = other))
    (other : String) :
    (places.insert name (place items items.length))[other]? =
      firstPlace? (items ++ [item]) (check other) := by
  rw [Std.ExtTreeMap.mem_iff_isSome_getElem?, Option.not_isSome_iff_eq_none, recorded] at absent
  simp only [Std.ExtTreeMap.getElem?_insert, Std.LawfulEqCmp.compare_eq_iff_eq, firstPlace?_snoc,
    passes, decide_eq_true_eq, recorded]
  by_cases same : name = other
  · subst other
    simp only [absent, if_true, Option.none_or]
  · simp only [same, if_false, Option.or_none]

theorem records_declare (records : Records symbols items)
    (declared : symbols.declare statement = .ok after) :
    Records after (items ++ [statement.item]) := by
  have counted : symbols.count + statement.item.width =
      place (items ++ [statement.item]) (items ++ [statement.item]).length := by
    rw [place_snoc_length, records.count]
  simp only [declare] at declared
  cases item : statement.item with
  | label name =>
      simp only [item] at declared counted
      split at declared
      · contradiction
      · rename_i absent
        cases declared
        refine ⟨?_, ?_, ?_, counted, ?_⟩
        · rw [records.count]
          exact getElem?_insert_new records.labels absent fun _ => rfl
        · intro other
          rw [records.vars, firstPlace?_snoc_other rfl]
        · rw [records.codeStart, firstPlace?_snoc_other rfl]
        · rw [records.empty, List.any_append]
          exact congrArg not (Bool.or_false _).symm
  | var name initial =>
      simp only [item] at declared counted
      split at declared
      · contradiction
      · rename_i absent
        cases declared
        refine ⟨?_, ?_, ?_, counted, ?_⟩
        · intro other
          rw [records.labels, firstPlace?_snoc_other rfl]
        · rw [records.count]
          exact getElem?_insert_new records.vars absent fun _ => rfl
        · rw [records.codeStart, firstPlace?_snoc_other rfl]
        · rw [List.any_append, List.any_cons, Item.isVar, Bool.true_or, Bool.or_true]
          exact Std.ExtTreeMap.isEmpty_eq_false_iff.mpr Std.ExtTreeMap.insert_ne_empty
  | instruction opcode slots =>
      simp only [item] at declared counted
      cases declared
      refine ⟨?_, ?_, ?_, counted, ?_⟩
      · intro other
        rw [records.labels, firstPlace?_snoc_other rfl]
      · intro other
        rw [records.vars, firstPlace?_snoc_other rfl]
      · rw [records.codeStart, records.count, firstPlace?_snoc]
        rfl
      · rw [records.empty, List.any_append]
        exact congrArg not (Bool.or_false _).symm

theorem populate_snoc {batch : List Statement}
    (populated : symbols.populate (batch ++ [statement]) = .ok after) :
    ∃ between, symbols.populate batch = .ok between ∧ between.declare statement = .ok after := by
  simp only [populate, List.foldlM_append, List.foldlM_cons, List.foldlM_nil] at populated
  cases before : batch.foldlM declare symbols with
  | error fault =>
      rw [before] at populated
      cases populated
  | ok between =>
      rw [before] at populated
      cases declared : between.declare statement with
      | error fault =>
          simp only [bind, Except.bind, declared] at populated
          cases populated
      | ok next =>
          simp only [bind, Except.bind, declared] at populated
          cases populated
          exact ⟨between, before, declared⟩

theorem records_of_populate {batch : List Statement}
    (populated : ({} : Symbols).populate batch = .ok after) :
    Records after (batch.map Statement.item) := by
  induction batch using List.reverseRecOn generalizing after with
  | nil =>
      cases populated
      exact records_empty
  | append_singleton batch statement ih =>
      obtain ⟨between, before, declared⟩ := populate_snoc populated
      rw [List.map_append, List.map_singleton]
      exact records_declare (ih before) declared

theorem Records.headerSize (records : Records symbols items) :
    symbols.headerSize = Layout.headerSize items := by
  simp only [Symbols.headerSize, records.empty, Layout.headerSize]
  cases items.any Item.isVar <;> rfl

end Symbols

end Intcode.Assembly
