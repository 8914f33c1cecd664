import LogRelay.Text.CaseTable

/-!
# Upper and lower case

Full case mappings: a code point may become several (`ß` becomes `SS`), and a sigma becomes the
final form at the end of a word.
-/

namespace LogRelay.Text

/-- Whether a shift applies to a code point. -/
def Shift.covers (s : Shift) (n : Nat) : Bool :=
  s.first ≤ n && n ≤ s.last && (n - s.first) % s.step == 0

/-- A code point mapped by a table of shifts and a table of several-point forms. -/
def mapCase (shifts : List Shift) (specials : List (Nat × List Nat)) (c : CodePoint) : Text :=
  match shifts.find? (·.covers c.val) with
  | some s => [CodePoint.ofNat (c.val + s.delta).toNat]
  | none =>
    match specials.lookup c.val with
    | some form => form.map CodePoint.ofNat
    | none => [c]

/-- The upper case form of a code point. -/
def upperPoint (c : CodePoint) : Text :=
  if c.val < 128 then
    if 97 ≤ c.val ∧ c.val ≤ 122 then [CodePoint.ofNat (c.val - 32)] else [c]
  else mapCase upperShifts upperSpecials c

/-- The lower case form of a code point on its own. -/
def lowerPoint (c : CodePoint) : Text :=
  if c.val < 128 then
    if 65 ≤ c.val ∧ c.val ≤ 90 then [CodePoint.ofNat (c.val + 32)] else [c]
  else mapCase lowerShifts lowerSpecials c

/-- A text in upper case. -/
def upper (t : Text) : Text := t.flatMap upperPoint

/-- Whether a code point lies in one of some runs. -/
def inRuns (runs : List (Nat × Nat)) (c : CodePoint) : Bool :=
  runs.any fun run => run.1 ≤ c.val && c.val ≤ run.2

/-- Whether the first code point that is not case-ignorable has a case. -/
def meetsCased (t : Text) : Bool :=
  match t.find? fun c => !(inRuns caseIgnorableRuns c) with
  | some c => inRuns casedRuns c
  | none => false

/-- Lower case, with what precedes kept in reverse to find the ends of words. -/
def lowerFrom (before : Text) : Text → Text
  | [] => []
  | c :: t =>
    (if c.val = 0x3A3 then
      [if meetsCased before && !(meetsCased t) then CodePoint.ofNat 0x3C2
        else CodePoint.ofNat 0x3C3]
    else lowerPoint c) ++ lowerFrom (c :: before) t

/-- A text in lower case. -/
def lower (t : Text) : Text := lowerFrom [] t

end LogRelay.Text
