import MediaPhases.Text.Lowercase
import MediaPhases.Threshold.Amount

/-!
# Resolutions

The standard labels of frame heights.  A frame height is classified by the largest label that it
reaches, and everything below the second label counts as the first.
-/

namespace MediaPhases

/-- A standard resolution label. -/
inductive Resolution where
  | p480
  | p720
  | p1080
  | p1440
  | p2160
  | p4320
deriving DecidableEq, Repr

namespace Resolution

/-- The nominal frame height in lines. -/
def height : Resolution → Nat
  | .p480 => 480
  | .p720 => 720
  | .p1080 => 1080
  | .p1440 => 1440
  | .p2160 => 2160
  | .p4320 => 4320

/-- The labels in order of height. -/
def labels : List Resolution :=
  [.p480, .p720, .p1080, .p1440, .p2160, .p4320]

/-- The largest label that a frame height reaches. -/
def ofHeight (lines : Nat) : Resolution :=
  (labels.reverse.find? (·.height ≤ lines)).getD .p480

/-- The label as text. -/
def render (r : Resolution) : String :=
  s!"{r.height}p"

/-- The texts that name a label, in lower case. -/
def spellings : List (String × Resolution) :=
  labels.map (fun r => (r.render, r)) ++ [("4k", .p2160), ("8k", .p4320)]

/-- Reads a label.  A refusal quotes the literal as it was written. -/
def parse (s : String) : Except ThresholdFault Resolution :=
  let folded := String.ofList (Text.lowerChars (Text.trimChars s.toList))
  match spellings.find? (·.1 == folded) with
  | some (_, r) => .ok r
  | none => .error ⟨.resolution, s, .resolutionLabel⟩

end Resolution

end MediaPhases
