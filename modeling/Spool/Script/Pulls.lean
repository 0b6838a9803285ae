import Spool.Producer.Source
import Spool.Script.Reply

/-!
# Pulling a producer directly

Without a cursor, a producer can only be pulled, read for a number of elements, and ended: read to
the end and finished, or finished as it stands. `runPulls` runs such steps on a source and reports
each step's answer and how the source ended; `sample` reads a producer for a number of pulls,
pulls once more, and finishes it.
-/

namespace Spool.Script

/-- A step on a producer. -/
inductive PullStep where
  /-- One pull. -/
  | pull
  /-- At most `k` pulls, stopping at the first `none`. -/
  | take (k : Nat)

/-- How the steps on a producer end. -/
inductive PullEnd where
  /-- The producer is left as it stands. -/
  | keep
  /-- The producer is read to the end and finished. -/
  | drain
  /-- The producer is read to the end, its elements reported, and finished. -/
  | collectAll
  /-- The producer is finished as it stands. -/
  | finish

/-- What the end of the steps shows. -/
inductive Ending (ρ : Type) where
  /-- How many elements the source had yielded. -/
  | pulled (n : Nat)
  /-- The final result. -/
  | output (result : ρ)
  /-- The remaining elements and the final result. -/
  | collected (items : List Int64) (result : ρ)

/-- Runs the steps in order on a source; each step's answer, and the end. -/
def runPulls {ρ : Type} (source : Source Int64 ρ) (steps : List PullStep) (last : PullEnd) :
    List Reply × Ending ρ :=
  let (replies, source) := steps.foldl
    (fun (acc : List Reply × Source Int64 ρ) step ↦
      let (replies, p) := acc
      match step with
      | .pull => let (a, p) := Producer.pull p; (replies ++ [.ofElement a], p)
      | .take k => let (items, p) := Producer.pullUpTo k p; (replies ++ [.elements items], p))
    ([], source)
  let ending : Ending ρ :=
    match last with
    | .keep => .pulled source.pulled
    | .drain => .output (Producer.drain source)
    | .collectAll => let (items, r) := Producer.collectAll source; .collected items r
    | .finish => .output (Producer.finish source)
  (replies, ending)

/-- The elements of the first `pulls` pulls (all of them when not limited), the answer of one more
pull, and the final result. -/
def sample {π α ρ : Type} [Producer π α ρ] (p : π) (pulls : Option Nat) : List α × Option α × ρ :=
  let (items, p) :=
    match pulls with
    | some k => Producer.pullUpTo k p
    | none => Producer.elements p
  let (after, p) := Producer.pull p
  (items, after, Producer.finish p)

end Spool.Script
