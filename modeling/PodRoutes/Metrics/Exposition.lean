import PodRoutes.Metrics.Histogram
import PodRoutes.Text.Decimal

/-!
# The text form of the histogram

The operations come in the order of their names. Each has a line for every bound with the number of
durations up to it, one for all durations, one for their sum and one for their number. Without
operations there are no lines.
-/

namespace PodRoutes.Metrics

def metricName : String := "ccm_route_latencies_duration_milliseconds"

def metricHelp : String := "Latency of cloud route operations in milliseconds"

def escapeLabel (c : Char) : List Char :=
  if c = '\\' then ['\\', '\\']
  else if c = '"' then ['\\', '"']
  else if c = '\n' then ['\\', 'n']
  else [c]

def label (name value : String) : String :=
  name ++ "=\"" ++ String.ofList (value.toList.flatMap escapeLabel) ++ "\""

def lineHead (suffix : String) (labels : List String) : String :=
  metricName ++ suffix ++ "\x7b" ++ ",".intercalate labels ++ "\x7d"

/-- A number of microseconds in milliseconds. -/
def millisText (micros : Nat) : String :=
  let digits := ((Decimal.padded 3 (micros % 1000)).reverse.dropWhile (· = '0')).reverse
  Decimal.text (micros / 1000) ++ if digits.isEmpty then "" else "." ++ String.ofList digits

def seriesLines (verb : String) (s : Series) : List String :=
  let bucket (bound : String) (n : Nat) : String :=
    lineHead "_bucket" [label "verb" verb, label "le" bound] ++ " " ++ Decimal.text n
  bounds.map (fun b => bucket (Decimal.text b) (s.countUpTo b)) ++
    [bucket "+Inf" s.count,
      lineHead "_sum" [label "verb" verb] ++ " " ++ millisText s.sum,
      lineHead "_count" [label "verb" verb] ++ " " ++ Decimal.text s.count]

def lines (h : Histogram) : List String :=
  if h.entries.isEmpty then [] else
    ("# HELP " ++ metricName ++ " " ++ metricHelp) :: ("# TYPE " ++ metricName ++ " histogram") ::
      h.entries.flatMap fun e => seriesLines e.1 e.2

def exposition (h : Histogram) : String :=
  (lines h).foldl (fun text line => text ++ line ++ "\n") ""

end PodRoutes.Metrics
