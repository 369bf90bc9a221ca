import UpdateEngine.Loop
import UpdateEngine.Scan

/-!
# `StringUtils`: the loops over a text

`ReplaceStringAll` and `Split` as the loops they are, on texts as lists of characters. What a search does not find (`npos`) is
`none`. A text is shorter than `npos`, so that adding to a position does not reach it.
-/

namespace UpdateEngine.StringUtils

variable {α : Type} [DecidableEq α]

/-! ## ReplaceStringAll -/

/-- The variables of the loop. -/
structure Replacing (α : Type) where
  resultString : List α
  pos : Nat

/-- One round: look for the pattern from `pos` on, put the new text in its place and go on behind it; `break` where it is not found. -/
def replaceRound (subString newString : List α) (s : Replacing α) : Option (Replacing α) :=
  match Scan.findPattern subString s.resultString s.pos with
  | some pos => some
    { resultString := s.resultString.take pos ++ newString ++ s.resultString.drop (pos + subString.length)
      pos := pos + newString.length }
  | none => none

/-- `ReplaceStringAll` comes to its end and leaves `result` in `srcString`. -/
def ReplacesAll (srcString subString newString result : List α) : Prop :=
  ∃ pos, Loop.Ends (replaceRound subString newString) ⟨srcString, 0⟩ ⟨result, pos⟩

/-! ## Split -/

/-- The variables of the loop: the tokens, and `end`. -/
structure Splitting (α : Type) where
  tokens : List (List α)
  endPos : Option Nat

/-- `substr (start, end - start)`: up to the end of the text when `end` is `npos`. -/
def substr (str : List α) (start : Nat) (endPos : Option Nat) : List α :=
  (str.drop start).take (endPos.getD str.length - start)

/-- One round: `find_first_not_of` from `end` on, which finds nothing from `npos` on, then `find` from there. -/
def splitRound (str : List α) (delimiter : α) (s : Splitting α) : Option (Splitting α) :=
  match s.endPos.bind (Scan.findElem (fun c => !decide (c = delimiter)) str) with
  | some start =>
    let endPos := Scan.findElem (fun c => decide (c = delimiter)) str start
    some { tokens := s.tokens ++ [substr str start endPos], endPos }
  | none => none

/-- `Split` comes to its end and returns `tokens`. -/
def Splits (str : List α) (delimiter : α) (tokens : List (List α)) : Prop :=
  ∃ endPos, Loop.Ends (splitRound str delimiter) ⟨[], some 0⟩ ⟨tokens, endPos⟩

end UpdateEngine.StringUtils
