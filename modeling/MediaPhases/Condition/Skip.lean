import MediaPhases.Condition.Predicate
import MediaPhases.Outcome.Basic

/-!
# Skip conditions

A skip condition combines predicates.  In the mode `any` the first predicate that matches decides;
in the mode `all` every predicate has to match and the match of the condition names them all.  A
condition without predicates never matches.
-/

namespace MediaPhases

/-- How the predicates of a condition combine. -/
inductive MatchMode where
  | any
  | all
deriving DecidableEq, Repr

/-- The word of a policy for a mode. -/
def MatchMode.name : MatchMode → String
  | .any => "any"
  | .all => "all"

namespace SkipMatch

/-- The match as text. -/
def render (s : SkipMatch) : String :=
  s!"{s.condition} matched '{s.value}'"

/-- The reason for which a phase is skipped on a match. -/
def reason (s : SkipMatch) : SkipReason :=
  .condition s.condition s.value (some s.detail)

/-- The match of several predicates at once. -/
def combine (parts : List SkipMatch) : SkipMatch where
  condition := " and ".intercalate (parts.map (·.condition))
  value := ", ".intercalate (parts.map (·.value))
  detail := "; ".intercalate (parts.map (·.detail))

end SkipMatch

/-- The condition under which a phase is skipped. -/
structure SkipCondition where
  predicates : List Predicate
  mode : MatchMode := .any
deriving DecidableEq

namespace SkipCondition

/-- The loop over the predicates, with the matches found so far: the mode `any` ends at the first
predicate that matches, the mode `all` at the first one that does not. -/
def search (mode : MatchMode) (m : MediaInfo) (found : List SkipMatch) :
    List Predicate → Option SkipMatch
  | [] =>
    if mode = .all ∧ found ≠ [] then
      some (.combine found)
    else
      none
  | p :: rest =>
    match p.evaluate m with
    | .matched s => if mode = .any then some s else search mode m (found ++ [s]) rest
    | .noMatch => if mode = .all then none else search mode m found rest
    | .unknown => if mode = .all then none else search mode m found rest

/-- The match that justifies a skip, if there is one. -/
def evaluate (c : SkipCondition) (m : MediaInfo) : Option SkipMatch :=
  search c.mode m [] c.predicates

/-- The condition in one line. -/
def describe (c : SkipCondition) : String :=
  let joint :=
    match c.mode with
    | .any => " or "
    | .all => " and "
  joint.intercalate (c.predicates.map Predicate.describe)

/-- Whether the condition names no predicate. -/
def isEmpty (c : SkipCondition) : Bool :=
  c.predicates.isEmpty

end SkipCondition

end MediaPhases
