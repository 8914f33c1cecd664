import LogRelay.Text.Basic

/-!
# Blank space and line ends

`isBlank` is the white space that trimming removes, and `lines` cuts a text at every line end of the
character set, of which the line feed is only one.
-/

namespace LogRelay.Text

/-- White space of any script, the separator controls included. -/
def isBlank (c : CodePoint) : Bool :=
  let n := c.val
  (9 ≤ n && n ≤ 13) || (28 ≤ n && n ≤ 32) || n == 0x85 || n == 0xA0 || n == 0x1680 ||
    (0x2000 ≤ n && n ≤ 0x200A) || n == 0x2028 || n == 0x2029 || n == 0x202F || n == 0x205F ||
    n == 0x3000

/-- A text without its leading and trailing white space. -/
def strip (t : Text) : Text := ((t.dropWhile isBlank).reverse.dropWhile isBlank).reverse

/-- A text without a line feed at its end. -/
def withoutLineFeed (t : Text) : Text :=
  if t.getLast? = some ('\n' : CodePoint) then t.dropLast else t

/-- A code point that ends a line by itself. -/
def isLineEnd (c : CodePoint) : Bool :=
  let n := c.val
  (10 ≤ n && n ≤ 13) || (28 ≤ n && n ≤ 30) || n == 0x85 || n == 0x2028 || n == 0x2029

/-- Cuts a text at its line ends; `line` holds the current line in reverse. -/
def linesFrom (line : Text) : Text → List Text
  | [] => if line.isEmpty then [] else [line.reverse]
  | [c] => if isLineEnd c then [line.reverse] else [(c :: line).reverse]
  | c :: d :: t =>
    if c = '\r' ∧ d = '\n' then line.reverse :: linesFrom [] t
    else if isLineEnd c then line.reverse :: linesFrom [] (d :: t)
    else linesFrom (c :: line) (d :: t)

/-- The lines of a text without their line ends; a line end at the very end opens no further
line. -/
def lines (t : Text) : List Text := linesFrom [] t

/-- Reads both `\r\n` and a lone `\r` as a line feed, as a file opened for text is read. -/
def foldReturns : Text → Text
  | [] => []
  | [c] => if c = '\r' then ['\n'] else [c]
  | c :: d :: t =>
    if c = '\r' then
      if d = '\n' then '\n' :: foldReturns t else '\n' :: foldReturns (d :: t)
    else c :: foldReturns (d :: t)

end LogRelay.Text
