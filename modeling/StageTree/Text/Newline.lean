/-!
# Line Ends

Text files end their lines in one of three ways. Text that is read has a single line feed
for each of them.

## Main definitions

* `unifyNewlines`: A text with every line end written as a line feed.
-/

namespace StageTree

/-- A character of the unified text, given the one before it in the text as read: a carriage
    return becomes a line feed, and a line feed after a carriage return has been written. -/
def unifiedChar (before c : Char) : List Char :=
  if c = '\r' then ['\n']
  else if c = '\n' && before = '\r' then []
  else [c]

/-- A text with every line end written as a line feed: a carriage return with the line feed
    that follows it, or alone. -/
def unifyNewlines (cs : List Char) : List Char :=
  (('\n' :: cs).zip cs).flatMap fun (before, c) => unifiedChar before c

end StageTree
