import Rulebook.Binary64.Decimal

/-!
# Metrics

What the rulebook does is counted in series. A series has a name and labels, and is a counter, a
gauge or a histogram; of durations only the number of observations is kept, of other histograms
the observations too. Counters are exact; gauges and observations are given out as binary64, so
that a very large one is given as the nearest number of that format.
-/

namespace Rulebook

/-- The name and the labels of a series, labels in the order in which they were given. -/
structure Series where
  name : String
  labels : List (String × String)
deriving DecidableEq

/-- What has been counted. Each list holds a series once. -/
structure Metrics where
  /-- counters and their values -/
  counters : List (Series × Nat)
  /-- gauges and their last values -/
  gauges : List (Series × Nat)
  /-- histograms of durations and their numbers of observations -/
  durations : List (Series × Nat)
  /-- other histograms and their observations, in order -/
  sizes : List (Series × List Nat)
deriving DecidableEq

namespace Metrics

/-- Nothing counted. -/
def empty : Metrics := ⟨[], [], [], []⟩

/-- Changes what a series holds; a series that is not there starts from `start`. -/
def update {α : Type} (start : α) (f : α → α) (s : Series) :
    List (Series × α) → List (Series × α)
  | [] => [(s, f start)]
  | (t, a) :: rest => if t = s then (t, f a) :: rest else (t, a) :: update start f s rest

/-- What a series holds. -/
def lookup? {α : Type} (s : Series) : List (Series × α) → Option α
  | [] => none
  | (t, a) :: rest => if t = s then some a else lookup? s rest

/-- One more on a counter. -/
def increment (m : Metrics) (s : Series) : Metrics :=
  { m with counters := update 0 (· + 1) s m.counters }

/-- One more observed duration. -/
def observe (m : Metrics) (s : Series) : Metrics :=
  { m with durations := update 0 (· + 1) s m.durations }

/-- One more observation. -/
def sample (m : Metrics) (s : Series) (size : Nat) : Metrics :=
  { m with sizes := update [] (· ++ [size]) s m.sizes }

/-- A new value of a gauge. -/
def set (m : Metrics) (s : Series) (value : Nat) : Metrics :=
  { m with gauges := update 0 (fun _ => value) s m.gauges }

/-! ## Readings -/

/-- A whole number as it is given out: the nearest number of binary64, below `2 ^ 64`. -/
def reading (n : Nat) : Nat :=
  (Binary64.ofInt n).integer?.elim n fun k => min k.toNat (Nat.pow 2 64 - 1)

/-- The gauges with the values that they are given out with. -/
def gaugeReadings (m : Metrics) : List (Series × Nat) := m.gauges.map fun (s, n) => (s, reading n)

/-- The histograms of sizes with the observations that they are given out with. -/
def sizeReadings (m : Metrics) : List (Series × List Nat) :=
  m.sizes.map fun (s, ns) => (s, ns.map reading)

/-! ## What is counted -/

/-- Something that is counted. -/
inductive Event where
  /-- a request has been answered -/
  | request (method path : String) (status : Nat)
  /-- a rule has been read, or could not be -/
  | parsed (status : String)
  /-- so many rules have been combined, or could not be -/
  | combined (inputs : Nat) (status : String)
  /-- a rule has been evaluated -/
  | evaluated (status : String)
  /-- so many rules are stored -/
  | stored (count : Nat)
deriving DecidableEq

/-- The labels of a request. -/
def requestLabels (method path : String) (status : Nat) : List (String × String) :=
  [("method", method), ("path", path), ("status", String.ofList (Decimal.toDigits status))]

/-- Counts an event. -/
def note (m : Metrics) : Event → Metrics
  | .request method path status =>
    let labels := requestLabels method path status
    (m.increment ⟨"http_requests_total", labels⟩).observe
      ⟨"http_request_duration_seconds", labels⟩
  | .parsed status => m.increment ⟨"rule_parses_total", [("status", status)]⟩
  | .combined inputs status =>
    (m.increment ⟨"rule_combinations_total", [("status", status)]⟩).sample
      ⟨"rule_combination_inputs", []⟩ inputs
  | .evaluated status =>
    (m.increment ⟨"rule_evaluations_total", [("status", status)]⟩).observe
      ⟨"rule_evaluation_duration_seconds", []⟩
  | .stored count => m.set ⟨"rules_stored", []⟩ count

end Metrics

end Rulebook
