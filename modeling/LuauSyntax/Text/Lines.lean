namespace LuauSyntax.Text

def splitLines : List Char → List (List Char)
  | [] => []
  | '\r' :: '\n' :: cs => [] :: splitLines cs
  | '\n' :: cs => [] :: splitLines cs
  | c :: cs =>
      match splitLines cs with
      | [] => [[c]]
      | line :: rest => (c :: line) :: rest

def lines (s : String) : List String :=
  (splitLines s.toList).map String.ofList

end LuauSyntax.Text
