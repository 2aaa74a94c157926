import GhAddressCr.PyValue

/-!
# GitHub thread states

The reading of an item's `state` and `status`, shared by claims, publishing and the gates.
-/
namespace GhAddressCr.GithubThreadState

open PyText

def githubThreadClaimableStates : List String := ["open", "blocked", "waiting_for_fix", "stale"]

def githubThreadTerminalStates : List String :=
  ["closed", "fixed", "clarified", "deferred", "rejected", "resolved", "verified", "published"]

/-- The item's state, read from `status` where `state` is blank. -/
def normalizedThreadState (row : Dict) : String :=
  let state := lower (strip (row.textOr "state" ""))
  if state ≠ "" then state else lower (strip (row.textOr "status" ""))

def isGithubThreadItem (row : Dict) : Bool :=
  lower ((row.get "item_kind").orElse ((row.get "kind").orElse (.str ""))).text == "github_thread"

def isTerminalGithubThread (row : Dict) : Bool :=
  githubThreadTerminalStates.contains (normalizedThreadState row)

def isResolvedGithubThread (row : Dict) : Bool :=
  if row.has "isResolved" then (row.get "isResolved").truthy
  else if row.has "is_resolved" then (row.get "is_resolved").truthy
  else isTerminalGithubThread row

def isStaleOrOutdatedGithubThread (row : Dict) : Bool :=
  normalizedThreadState row == "stale" || upper (strip (row.textOr "status" "")) == "STALE" ||
    ((row.get "is_outdated").orElse (row.get "isOutdated")).truthy

def isStaleGithubThreadItem (row : Dict) : Bool :=
  isGithubThreadItem row && isStaleOrOutdatedGithubThread row

def isClaimableGithubThread (row : Dict) (requireItemKind : Bool := true) : Bool :=
  if requireItemKind && !isGithubThreadItem row then false
  else if isResolvedGithubThread row then false
  else
    let state := normalizedThreadState row
    let state :=
      if state ≠ "" then state
      else if isStaleOrOutdatedGithubThread row then "stale" else "open"
    githubThreadClaimableStates.contains state

/-- The state and status an item returns to when its lease ends without a result. -/
def returnedClaimableState (row : Dict) : String × String :=
  if isStaleOrOutdatedGithubThread row then ("stale", "STALE") else ("open", "OPEN")

/-- A returned item is claimable again, unless it is marked resolved. -/
theorem returnedClaimableState_mem (row : Dict) :
    (returnedClaimableState row).1 ∈ githubThreadClaimableStates := by
  unfold returnedClaimableState
  split <;> decide

theorem returnedClaimableState_ne_claimed (row : Dict) :
    (returnedClaimableState row).1 ≠ "claimed" := by
  unfold returnedClaimableState
  split <;> decide

end GhAddressCr.GithubThreadState
