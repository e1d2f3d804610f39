/-!
# Lines

Only a line feed ends a line, as in the rows of a concrete tree.  A carriage
return before it belongs to the line ending and is dropped.
-/

namespace HaskellTags
namespace Text

/-- The parts of a list between the elements that separate; there is one part
more than separators. -/
def splitWhen {α : Type} (separates : α → Bool) : List α → List (List α)
  | [] => [[]]
  | a :: rest =>
    if separates a then [] :: splitWhen separates rest
    else
      match splitWhen separates rest with
      | [] => [[a]]
      | part :: parts => (a :: part) :: parts

/-- A line without one carriage return at its end. -/
def dropReturn (line : List Char) : List Char :=
  if line.getLast? = some '\r' then line.dropLast else line

/-- The lines of a text. -/
def lines (text : String) : List String :=
  (splitWhen (· == '\n') text.toList).map fun line => String.ofList (dropReturn line)

/-- The parts of a text between the characters that separate. -/
def splitText (separates : Char → Bool) (text : String) : List String :=
  (splitWhen separates text.toList).map String.ofList

/-- A text in which every line ends with a line feed alone: a carriage return,
with a line feed after it or not, is one line ending. -/
def unifyEndings : List Char → List Char
  | [] => []
  | '\r' :: '\n' :: rest => '\n' :: unifyEndings rest
  | '\r' :: rest => '\n' :: unifyEndings rest
  | c :: rest => c :: unifyEndings rest

end Text
end HaskellTags
