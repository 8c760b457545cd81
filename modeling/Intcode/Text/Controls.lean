namespace Intcode.Text

/-- A character as a log line shows it: one that a terminal would act on is
spelled out. -/
def showControl (char : Char) : List Char :=
  if char.toNat = 0x1B || char.toNat = 0x07 || char.toNat = 0x08 || char.toNat = 0x0C ||
      char.toNat = 0x7F then
    '\\' :: 'x' :: Nat.toDigits 16 (char.toNat / 16) ++ Nat.toDigits 16 (char.toNat % 16)
  else if 0x80 ≤ char.toNat && char.toNat ≤ 0x9F then
    '\\' :: 'u' :: '{' :: Nat.toDigits 16 char.toNat ++ ['}']
  else [char]

def showControls (text : String) : String :=
  String.ofList (text.toList.flatMap showControl)

end Intcode.Text
