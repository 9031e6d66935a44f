/-! Counters of what the pipeline does with its entries.
-/

namespace LogIntake

/-- What is counted; failures are counted by their kind. -/
inductive Counter where
  | entries
  | formatted
  | dropped
  | failed (reason : String)
  deriving Repr, DecidableEq, Inhabited

namespace Counter

def name : Counter → String
  | .entries => "gcplog_entries_total"
  | .formatted => "gcplog_entries_formatted_total"
  | .dropped => "gcplog_entries_dropped_total"
  | .failed _ => "gcplog_format_errors_total"

/-- The name of the label that tells the kinds of failure apart. -/
def reasonLabel : String :=
  "reason"

def description : Counter → String
  | .entries => "Total number of raw log entries handed to the formatter"
  | .formatted => "Total number of entries converted into normalized records"
  | .dropped => "Total number of entries dropped by relabel rules"
  | .failed _ => "Total number of entries that failed to format, by reason"

def all : List Counter :=
  [.entries, .formatted, .dropped, .failed ""]

/-- The name of a counter, with its label if it has one. -/
def key : Counter → String
  | .failed reason =>
      (Counter.failed reason).name ++ "\x7b" ++ reasonLabel ++ "=" ++ reason ++ "\x7d"
  | counter => counter.name

end Counter

/-- The counters that have been touched, with their values. -/
abbrev Counters :=
  List (Counter × Nat)

namespace Counters

def value (counters : Counters) (counter : Counter) : Nat :=
  (counters.lookup counter).getD 0

def increment : Counters → Counter → Counters
  | [], counter => [(counter, 1)]
  | (other, n) :: rest, counter =>
      if other = counter then (other, n + 1) :: rest else (other, n) :: increment rest counter

end Counters

end LogIntake
