import Rulebook.Metrics.Basic

/-!
# The metrics page

The page lists series as a name and labels between braces, with the values of labels between
quotes, and describes each metric by a line of help and a line with its kind. Histograms are shown
as summaries, of which only the number of observations is taken up here. Beside what the rulebook
counts, the page shows which service was started.
-/

namespace Rulebook.Metrics

/-- The value of a label between its quotes. The end of a line is written as `\n`, a quote with a
backslash and a backslash twice. A backslash waits for what follows it before it is written, which
is what `held` says: a quote or a second backslash that follows is written for both, and the ends
of lines in between are written first. -/
def escapeLabel (held : Bool) : List Char → List Char
  | [] => if held then ['\\', '\\'] else []
  | '\n' :: rest => '\\' :: 'n' :: escapeLabel held rest
  | '"' :: rest => '\\' :: '"' :: escapeLabel false rest
  | '\\' :: rest => if held then '\\' :: '\\' :: escapeLabel false rest else escapeLabel true rest
  | c :: rest => (if held then ['\\', '\\'] else []) ++ c :: escapeLabel false rest

/-- A label as the page writes it. -/
def labelText (label : String × String) : String :=
  label.1 ++ "=\"" ++ String.ofList (escapeLabel false label.2.toList) ++ "\""

/-- A series as the page writes it; `ending` is added to the name. -/
def seriesText (ending : String) (s : Series) : String :=
  if s.labels.isEmpty then s.name ++ ending
  else s.name ++ ending ++ "\x7b" ++ ",".intercalate (s.labels.map labelText) ++ "\x7d"

/-- The help of each metric. -/
def help : List (String × String) :=
  [("http_requests_total", "Total number of HTTP requests"),
   ("http_request_duration_seconds", "HTTP request duration in seconds"),
   ("rule_parses_total", "Total number of rule string parses"),
   ("rule_combinations_total", "Total number of rule combinations"),
   ("rule_combination_inputs", "Number of rule strings per combination"),
   ("rule_evaluations_total", "Total number of rule evaluations"),
   ("rule_evaluation_duration_seconds", "Rule evaluation duration in seconds"),
   ("rules_stored", "Number of rules held in the store")]

/-- The counter of starts of a service. -/
def starts (service : String) : Series := ⟨"service_starts_total", [("service", service)]⟩

/-- The counters after a service has been started. -/
def started (m : Metrics) (service : String) : Metrics := m.increment (starts service)

/-- Adds a number to what stands under a text. -/
def tally (text : String) (n : Nat) : List (String × Nat) → List (String × Nat)
  | [] => [(text, n)]
  | (t, k) :: rest => if t = text then (t, k + n) :: rest else (t, k) :: tally text n rest

/-- The numbers of observations of histograms. Histograms that are written alike are one on the
page. -/
def observations (histograms : List (Series × Nat)) : List (String × Nat) :=
  histograms.foldl (fun done (s, n) => tally (seriesText "_count" s) n done) []

/-- The series of the page with their values. -/
def page (m : Metrics) : List (String × Nat) :=
  m.counters.map (fun (s, n) => (seriesText "" s, n)) ++
    m.gaugeReadings.map (fun (s, n) => (seriesText "" s, n)) ++
    observations m.durations ++
    observations (m.sizes.map fun (s, xs) => (s, xs.length))

/-- The lines that describe a metric. -/
def describe (kind name : String) : List String :=
  let about := match help.lookup name with
    | some text => ["# HELP " ++ name ++ " " ++ text]
    | none => []
  about ++ ["# TYPE " ++ name ++ " " ++ kind]

/-- The lines that describe the metrics of the page, sorted and without repetition. -/
def descriptions (m : Metrics) : List String :=
  let lines :=
    m.counters.flatMap (fun (s, _) => describe "counter" s.name) ++
    m.gauges.flatMap (fun (s, _) => describe "gauge" s.name) ++
    m.durations.flatMap (fun (s, _) => describe "summary" s.name) ++
    m.sizes.flatMap (fun (s, _) => describe "summary" s.name)
  lines.eraseDups.mergeSort (fun a b => a ≤ b)

end Rulebook.Metrics
