import GhAddressCr.PyValue

/-!
# Severities and priorities

What `severity.py` reads of a severity or a review priority, and the evidence that it keeps: the
value, where it was stated and in which words.
-/
namespace GhAddressCr

open PyText

def validSeverities : List String := ["P0", "P1", "P2", "P3", "P4"]

def normalizeSeverity (value : Value) : Option String :=
  if value = .null then none
  else
    let normalized := upper (strip value.text)
    if validSeverities.contains normalized then some normalized else none

/-- What the patterns of `severity.py` find in a text: a severity in upper case, a review
priority in lower case. -/
structure MarkerSearch where
  severity : String → Option String
  priority : String → Option String

/-- Evidence of a severity or a priority. -/
def markerEvidence (value source : String) (rawMarker : Option String) (observedFrom : Value) :
    Dict :=
  let raw := strip ((rawMarker.filter (· ≠ "")).getD value)
  let evidence := Dict.ofFields
    [("value", .str value), ("source", .str source),
      ("raw_marker", .str (if raw = "" then value else raw))]
  if observedFrom.truthy then evidence.set "observed_from" observedFrom else evidence

def severityEvidence (value : Value) (source : String) (rawMarker : Option String)
    (observedFrom : Value) : Option Dict :=
  (normalizeSeverity value).map fun normalized =>
    markerEvidence normalized source rawMarker observedFrom

def extractSeverityEvidence (search : MarkerSearch) (text : Value) (source : String)
    (observedFrom : Value) : Option Dict :=
  let body := (text.orElse (.str "")).text
  if strip body = "" then none
  else (search.severity body).bind fun marker =>
    severityEvidence (.str marker) source (some marker) observedFrom

def reviewPriorities : List String := ["high", "medium", "low"]

def reviewPriorityEvidence (value : Value) (source : String) (rawMarker : Option String)
    (observedFrom : Value) : Option Dict :=
  let priority := lower (strip (value.orElse (.str "")).text)
  if reviewPriorities.contains priority then
    some (markerEvidence priority source rawMarker observedFrom)
  else none

def extractReviewPriorityEvidence (search : MarkerSearch) (text : Value) (source : String)
    (observedFrom : Value) : Option Dict :=
  let body := (text.orElse (.str "")).text
  if strip body = "" then none
  else (search.priority body).map fun priority =>
    markerEvidence priority source (some priority) observedFrom

def applySeverityEvidence (item : Dict) (evidence : Option Dict) : Dict :=
  match evidence with
  | none => (item.pop "severity").pop "severity_evidence"
  | some evidence =>
      (item.set "severity" (evidence.get "value")).set "severity_evidence" evidence.toValue

theorem get_applySeverityEvidence {key : String} (item : Dict) (evidence : Option Dict)
    (h : "severity" ≠ key) (hevidence : "severity_evidence" ≠ key) :
    (applySeverityEvidence item evidence).get key = item.get key := by
  cases evidence with
  | none =>
      show ((item.pop "severity").pop "severity_evidence").get key = _
      rw [Dict.get_pop, if_neg hevidence, Dict.get_pop, if_neg h]
  | some evidence =>
      show ((item.set "severity" _).set "severity_evidence" _).get key = _
      rw [Dict.get_set, if_neg hevidence, Dict.get_set, if_neg h]

def firstSceneItemSeverity (item : Dict) : Option String :=
  match (item.get "severity_evidence").toDict? with
  | some evidence => normalizeSeverity (evidence.get "value")
  | none => none

end GhAddressCr
