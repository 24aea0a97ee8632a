import TagRules.Dictionary

set_option autoImplicit false

namespace TagRules

structure Meter where
  name : String
  labels : List (String × String)
  deriving DecidableEq, Inhabited

abbrev Metrics := Dictionary Meter Nat

namespace Meter

def errors (kind service : String) : Meter :=
  ⟨"errors_total", [("error_type", kind), ("service", service)]⟩

def runs (trigger : String) : Meter := ⟨"icon_reconciliations_total", [("trigger", trigger)]⟩

def durations (trigger : String) : Meter :=
  ⟨"icon_reconcile_duration_seconds_count", [("trigger", trigger)]⟩

def added : Meter := ⟨"icon_assignments_changed_total", [("change", "added")]⟩

def removed : Meter := ⟨"icon_assignments_changed_total", [("change", "removed")]⟩

def service (name : String) : Meter :=
  ⟨"service_info_info", [("service", name), ("version", "1.0.0")]⟩

def sortKey (m : Meter) : List String :=
  m.name :: m.labels.flatMap fun label => [label.1, label.2]

end Meter

namespace Metrics

def empty : Metrics := []

def get (m : Meter) (metrics : Metrics) : Nat := (Dictionary.get? m metrics).getD 0

def add (m : Meter) (n : Nat) (metrics : Metrics) : Metrics :=
  Dictionary.put m (get m metrics + n) metrics

def addSome (m : Meter) (n : Nat) (metrics : Metrics) : Metrics :=
  if n = 0 then metrics else add m n metrics

def recordRun (trigger : String) (added removed : Nat) (metrics : Metrics) : Metrics :=
  add (.durations trigger) 1
    (addSome .removed removed (addSome .added added (add (.runs trigger) 1 metrics)))

def recordError (kind service : String) (metrics : Metrics) : Metrics :=
  add (.errors kind service) 1 metrics

def samples (service : String) (metrics : Metrics) : List (Meter × Nat) :=
  ((Meter.service service, 1) :: metrics).mergeSort
    fun a b => !decide (b.1.sortKey < a.1.sortKey)

@[simp] theorem get_add (m other : Meter) (n : Nat) (metrics : Metrics) :
    get other (add m n metrics) = get other metrics + if m = other then n else 0 := by
  simp only [get, add, Dictionary.get_put]
  by_cases h : m = other
  · subst h; simp
  · simp [h]

@[simp] theorem get_add_some (m other : Meter) (n : Nat) (metrics : Metrics) :
    get other (addSome m n metrics) = get other metrics + if m = other then n else 0 := by
  simp only [addSome]
  split
  · simp [*]
  · exact get_add m other n metrics

end Metrics

end TagRules
