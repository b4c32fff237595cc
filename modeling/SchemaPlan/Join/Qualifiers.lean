import SchemaPlan.Sql.Token.Scan
import SchemaPlan.Text.LowerCase

/-!
# Qualifiers in a condition

A dotted name is a run of words with a single period between neighbours and nothing else in
between. Its qualifier is the word before the last: `t.id` and `dbo.t.id` both name `t`. The
qualifiers of a condition tell which sources it speaks of.
-/

namespace SchemaPlan

open SchemaPlan.Sql

/-- What is known between two tokens of a condition. -/
structure QualifierScan where
  /-- The words of the dotted name that is being read, the last one first. -/
  run : List String := []
  /-- The last token is a period that belongs to the name. -/
  afterPeriod : Bool := false
  /-- Open parentheses. -/
  depth : Nat := 0
  /-- The qualifiers found so far, in order. -/
  found : List String := []
deriving Repr, DecidableEq, Inhabited

namespace QualifierScan

/-- End the dotted name. Its qualifier counts if the name lies within `minDepth` parentheses. -/
def endRun (minDepth : Nat) (s : QualifierScan) : QualifierScan :=
  let found := match s.run with
    | _ :: qualifier :: _ =>
      let key := Text.lower qualifier
      if minDepth ≤ s.depth && !s.found.contains key then s.found ++ [key] else s.found
    | _ => s.found
  { s with run := [], afterPeriod := false, found }

/-- The state after a token. -/
def step (minDepth : Nat) (s : QualifierScan) (token : Token) : QualifierScan :=
  match token with
  | .word text _ =>
    if s.afterPeriod then { s with run := text :: s.run, afterPeriod := false }
    else { s.endRun minDepth with run := [text] }
  | .mark .period =>
    if !s.run.isEmpty && !s.afterPeriod then { s with afterPeriod := true } else s.endRun minDepth
  | .mark .openParen =>
    let ended := s.endRun minDepth
    { ended with depth := ended.depth + 1 }
  | .mark .closeParen =>
    let ended := s.endRun minDepth
    { ended with depth := ended.depth - 1 }
  | _ => s.endRun minDepth

end QualifierScan

/-- The qualifiers of the dotted names that lie within at least `minDepth` parentheses, in lower
case, in order and without repetition. -/
def qualifiersOf (minDepth : Nat) (tokens : List Token) : List String :=
  ((tokens.foldl (QualifierScan.step minDepth) {}).endRun minDepth).found

/-- The qualifiers in a text; a text without tokens has none. -/
def qualifiersIn (minDepth : Nat) (text : String) : List String :=
  match scan text with
  | .ok tokens => qualifiersOf minDepth (tokens.map (·.token))
  | .error _ => []

end SchemaPlan
