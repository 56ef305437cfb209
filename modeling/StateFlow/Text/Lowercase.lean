import StateFlow.Text.CaseTable

/-!
# Lower-case text

Every character is replaced by its lower-case form. The capital sigma takes its final form at the
end of a word: behind a cased character and before none, ignorable characters between not counted.
-/

namespace StateFlow.Text

private def runShift? (n : Nat) (run : LowerRun) : Option Int :=
  if run.first ≤ n ∧ n ≤ run.last ∧ (n - run.first) % run.step = 0 then some run.shift else none

def lowerChar (c : Char) : List Char :=
  if c.toNat < 128 then [c.toLower]
  -- No other character has a lower-case form of two.
  else if c.toNat = 0x130 then ['i', Char.ofNat 0x307]
  else
    match lowerRuns.findSome? (runShift? c.toNat) with
    | some shift => [Char.ofNat (c.toNat + shift).toNat]
    | none => [c]

/-- Whether the first character that is not ignored is a cased one. -/
def casedAhead (text : List Char) : Bool :=
  ((text.dropWhile (inRanges caseIgnorableRanges)).head?).any (inRanges casedRanges)

/-- The lower-case form of a text; `before` holds the characters in front of it, nearest first. -/
def lowerFrom (before : List Char) : List Char → List Char
  | [] => []
  | c :: rest =>
    let form :=
      if c.toNat = 0x3A3 then
        [Char.ofNat (if casedAhead before && !casedAhead rest then 0x3C2 else 0x3C3)]
      else lowerChar c
    form ++ lowerFrom (c :: before) rest

def lowercase (text : String) : String := String.ofList (lowerFrom [] text.toList)

end StateFlow.Text
