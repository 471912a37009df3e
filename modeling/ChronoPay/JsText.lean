import Mathlib.Tactic.TypeStar

/-!
# JsText — string methods of the language the services are written in
-/

namespace ChronoPay

/-- The white space and line terminators `String.prototype.trim` strips. -/
def isJsSpace (c : Char) : Bool :=
  [0x09, 0x0a, 0x0b, 0x0c, 0x0d, 0x20, 0xa0, 0x1680, 0x2028, 0x2029, 0x202f, 0x205f, 0x3000,
    0xfeff].contains c.toNat || (0x2000 ≤ c.toNat && c.toNat ≤ 0x200a)

def trim (text : String) : String :=
  String.ofList (((text.toList.dropWhile isJsSpace).reverse.dropWhile isJsSpace).reverse)

/-- `text.split(/\r?\n/)`. -/
def splitLines : List Char → List (List Char)
  | [] => [[]]
  | '\r' :: '\n' :: rest => [] :: splitLines rest
  | '\n' :: rest => [] :: splitLines rest
  | c :: rest =>
    match splitLines rest with
    | line :: lines => (c :: line) :: lines
    | [] => [[c]]

end ChronoPay
