/-!
# Lines

A line ends at a line feed, which does not belong to it. One carriage return directly before that
line feed is part of the line's end as well. What follows the last line feed is a line of its own
if it is not empty, and keeps its carriage return. The main statement, `lines_append_lineFeed`, is
that a text splits into lines at each of its line feeds.
-/

namespace StoreTrial.Text

/-- The line without the carriage return at its end, if it ends with one. -/
def dropReturn (line : List Char) : List Char :=
  if line.getLast? = some '\r' then line.dropLast else line

/-- The lines of a text, in order. -/
def lines (text : List Char) : List (List Char) :=
  let pieces := text.splitOn '\n'
  pieces.dropLast.map dropReturn ++ pieces.getLast?.toList.filter fun last => !last.isEmpty

/-- The empty text has no lines. -/
@[simp]
theorem lines_nil : lines [] = [] := rfl

/-- The lines of what stands before a line feed, with that line feed, come before the lines of what
follows it. -/
theorem lines_append_lineFeed (before after : List Char) :
    lines (before ++ '\n' :: after) = (before.splitOn '\n').map dropReturn ++ lines after := by
  have h : (before ++ '\n' :: after).splitOn '\n' = before.splitOn '\n' ++ after.splitOn '\n' :=
    List.splitOnP_append_cons before after rfl
  have hne : after.splitOn '\n' ≠ [] := List.splitOnP_ne_nil _ after
  simp only [lines, h, List.dropLast_append_of_ne_nil hne, List.getLast?_append,
    List.getLast?_eq_some_getLast hne, Option.some_or, List.map_append, List.append_assoc]

end StoreTrial.Text
