namespace Intcode.Text

/-- The number of bytes a text takes in UTF-8. -/
def byteLength : List Char → Nat
  | [] => 0
  | char :: rest => char.utf8Size + byteLength rest

@[simp] theorem byteLength_nil : byteLength [] = 0 := rfl

@[simp] theorem byteLength_cons (char : Char) (rest : List Char) :
    byteLength (char :: rest) = char.utf8Size + byteLength rest := rfl

@[simp] theorem byteLength_append (left right : List Char) :
    byteLength (left ++ right) = byteLength left + byteLength right := by
  induction left with
  | nil => simp
  | cons char rest ih => simp [ih, Nat.add_assoc]

/-- What is left of a text behind its first bytes. A character that the cut goes
through is lost. -/
def dropBytes : Nat → List Char → List Char
  | 0, text => text
  | _, [] => []
  | count + 1, char :: rest => dropBytes (count + 1 - char.utf8Size) rest

/-- The characters of a text that lie within its first bytes. -/
def takeBytes : Nat → List Char → List Char
  | 0, _ => []
  | _, [] => []
  | count + 1, char :: rest =>
      if char.utf8Size ≤ count + 1 then char :: takeBytes (count + 1 - char.utf8Size) rest else []

/-- The part of a text between two positions. -/
def slice (start stop : Nat) (text : List Char) : List Char :=
  takeBytes (stop - start) (dropBytes start text)

end Intcode.Text
