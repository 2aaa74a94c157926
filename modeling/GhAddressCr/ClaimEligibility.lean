import GhAddressCr.RejectedSubmissions

/-!
# Claims of items that have changed

An item is selected on a loaded copy, and claimed in a later transaction that looks the item
up again but asks only whether a lease holds it. Between the two any other command may commit.
-/
namespace GhAddressCr.ClaimEligibility

open RuntimeStore SideEffectOutbox

/-- A claim not yet committed, with the item as the selection saw it. -/
structure PendingIssue where
  claim : PendingClaim
  selected : Option Dict

/-- A committed claim, with the item as its transaction read it. -/
structure GrantedIssue where
  itemId : String
  read : Option Dict
  deriving DecidableEq

/-- A store, and what the processes that issue requests on it are about to commit. -/
structure IssueRun (P : Type) where
  store : Store
  pending : P → Option PendingIssue
  /-- A record of the claims that were committed. -/
  granted : List GrantedIssue

/-- Who does what. -/
inductive Label (P : Type) where
  /-- Load the session and select an item. -/
  | select (p : P) (args : IssueArgs)
  /-- Commit the claim of the selected item. -/
  | grant (p : P)
  /-- The process ends. -/
  | stop (p : P)
  /-- Another command commits a change of the session. -/
  | write (write : SessionWrite)
  /-- Another command commits a change of the outbox. -/
  | outbox (rows : Rows OutboxRow) (evidence : List EvidenceRecord)

/-- The item a selection hands out, as it is read from the loaded session. -/
def selectedItem (loaded : Session) (args : IssueArgs) : Option Dict :=
  (nextItem (expireAndReturn loaded args.now) args.itemId).2

/-- The item of a claim in the committed state that its transaction reads, once the leases
that have run out are expired. -/
def itemAtGrant (store : Store) (claim : PendingClaim) : Option Dict :=
  (loadWorkingSet store { itemIds := [claim.itemId], includeActiveLeases := true }).toOption.bind
    fun loaded => (expireAndReturn loaded.session claim.now).items[claim.itemId]?

variable {P : Type} [DecidableEq P]

def IssueRun.setPending (w : IssueRun P) (p : P) (issue : Option PendingIssue) : IssueRun P :=
  { w with pending := Function.update w.pending p issue }

def step (w : IssueRun P) : Label P → Option (IssueRun P)
  | .select p args =>
      match loadForIssue w.store args with
      | .error _ => none
      | .ok loaded =>
          match selectForClaim loaded args with
          | .claim claim =>
              some (w.setPending p (some { claim, selected := selectedItem loaded args }))
          | _ => none
  | .grant p =>
      match w.pending p with
      | none => none
      | some issue =>
          match grantClaim w.store issue.claim with
          | .error _ => some (w.setPending p none)
          | .ok (store, _) =>
              some { w.setPending p none with
                store
                granted := w.granted ++
                  [{ itemId := issue.claim.itemId, read := itemAtGrant w.store issue.claim }] }
  | .stop p => some (w.setPending p none)
  | .write write =>
      match write.apply w.store with
      | .error _ => none
      | .ok store => some { w with store }
  | .outbox rows evidence =>
      match commitOutbox w.store rows evidence with
      | .error _ => none
      | .ok (store, _) => some { w with store }

/-- Nothing is claimed yet. -/
def Initial (w : IssueRun P) : Prop :=
  Committed w.store ∧ (∀ p, w.pending p = none) ∧ w.granted = []

/-- Processes that issue requests on one store, among other commands. -/
def issuing (P : Type) [DecidableEq P] : TransitionSystem (IssueRun P) (Label P) :=
  .ofNext Initial step

/-- The selected item is read as it was selected, in the fields that say whether it is open. -/
def UnchangedSince (store : Store) (issue : PendingIssue) : Prop :=
  match issue.selected, itemAtGrant store issue.claim with
  | some selected, some item => SameEligibilityFields item selected
  | _, _ => True

instance (store : Store) (issue : PendingIssue) : Decidable (UnchangedSince store issue) := by
  unfold UnchangedSince
  split <;> infer_instance

/-- Claims are committed only on items that have not changed since they were selected. -/
def GrantsUnchanged : TransitionSystem.StepCondition (IssueRun P) (Label P) := fun w label _ =>
  match label with
  | .grant p => ∀ issue ∈ w.pending p, UnchangedSince w.store issue
  | _ => True

instance (w w' : IssueRun P) (label : Label P) : Decidable (GrantsUnchanged w label w') := by
  unfold GrantsUnchanged
  split <;> infer_instance

/-- A claim is made only on the item handed out, and that item is open. -/
theorem selectForClaim_selected {loaded : Session} {args : IssueArgs} {claim : PendingClaim}
    (h : selectForClaim loaded args = .claim claim) :
    ∃ item, selectedItem loaded args = some item ∧ itemIsOpen item = true := by
  unfold selectForClaim at h
  simp only at h
  split at h
  · unfold selectionWithoutItem at h
    repeat' split at h
    all_goals cases h
  · next itemId item hnext =>
    refine ⟨item, ?_, (nextItem_some hnext).2.1⟩
    unfold selectedItem
    rw [hnext]

/-- A committed claim is on an item that its transaction has read. -/
theorem grantClaim_read {store committed : Store} {claim : PendingClaim}
    {result : TransactionResult Lease} (h : grantClaim store claim = .ok (committed, result)) :
    ∃ item, itemAtGrant store claim = some item := by
  obtain ⟨current, session, written, added, final, hcurrent, -, hmutation, -⟩ :=
    transactWorkingSet_ok h
  unfold commitClaim at hmutation
  simp only at hmutation
  split at hmutation
  · cases hmutation
  · next item hitem =>
    refine ⟨item, ?_⟩
    unfold itemAtGrant
    rw [hcurrent]
    exact hitem

/-- Selections and claims are of open items. -/
structure OpenGrants (w : IssueRun P) : Prop where
  selected : ∀ p, ∀ issue ∈ w.pending p, ∃ item,
    issue.selected = some item ∧ itemIsOpen item = true
  granted : ∀ grant ∈ w.granted, ∃ item, grant.read = some item ∧ itemIsOpen item = true

theorem OpenGrants.setPending {w : IssueRun P} (h : OpenGrants w) (p : P)
    {issue : Option PendingIssue}
    (hissue : ∀ found ∈ issue, ∃ item, found.selected = some item ∧ itemIsOpen item = true) :
    OpenGrants (w.setPending p issue) := by
  constructor
  · intro q found hfound
    by_cases hq : q = p
    · subst hq
      simp only [IssueRun.setPending, Function.update_self] at hfound
      exact hissue found hfound
    · simp only [IssueRun.setPending, Function.update_of_ne hq] at hfound
      exact h.selected q found hfound
  · exact h.granted

theorem OpenGrants.step {w w' : IssueRun P} {label : Label P} (h : OpenGrants w)
    (hstep : step w label = some w') (hunchanged : GrantsUnchanged w label w') :
    OpenGrants w' := by
  cases label with
  | select p args =>
      simp only [ClaimEligibility.step] at hstep
      split at hstep
      · cases hstep
      · next loaded hloaded =>
        split at hstep
        · next claim hclaim =>
          obtain rfl := Option.some.inj hstep
          refine h.setPending p fun found hfound => ?_
          obtain rfl := Option.some.inj hfound
          exact selectForClaim_selected hclaim
        · cases hstep
  | grant p =>
      simp only [ClaimEligibility.step] at hstep
      split at hstep
      · cases hstep
      · next issue hissue =>
        have hdropped : OpenGrants (w.setPending p none) :=
          h.setPending p fun found hfound => by cases hfound
        split at hstep
        · obtain rfl := Option.some.inj hstep
          exact hdropped
        · next store result hgrant =>
          obtain rfl := Option.some.inj hstep
          refine ⟨hdropped.selected, fun grant hmem => ?_⟩
          rcases List.mem_append.mp hmem with hmem | hmem
          · exact h.granted grant hmem
          · obtain rfl := List.mem_singleton.mp hmem
            obtain ⟨selected, hselected, hopen⟩ := h.selected p issue hissue
            obtain ⟨item, hitem⟩ := grantClaim_read hgrant
            have hsame := hunchanged issue hissue
            unfold UnchangedSince at hsame
            rw [hselected, hitem] at hsame
            exact ⟨item, hitem, by rw [itemIsOpen_congr hsame, hopen]⟩
  | stop p =>
      obtain rfl := Option.some.inj hstep
      exact h.setPending p fun found hfound => by cases hfound
  | write write =>
      simp only [ClaimEligibility.step] at hstep
      split at hstep
      · cases hstep
      · obtain rfl := Option.some.inj hstep
        exact ⟨h.selected, h.granted⟩
  | outbox rows evidence =>
      simp only [ClaimEligibility.step] at hstep
      split at hstep
      · cases hstep
      · obtain rfl := Option.some.inj hstep
        exact ⟨h.selected, h.granted⟩

/-- In a run that commits claims only on unchanged items, every claim is on an item that is
open in the state its transaction reads. -/
theorem granted_items_open {w : IssueRun P}
    (h : (issuing P).ReachableUnder GrantsUnchanged w) :
    ∀ grant ∈ w.granted, ∃ item, grant.read = some item ∧ itemIsOpen item = true := by
  have hopen : OpenGrants w := by
    refine h.invariant OpenGrants ?_ fun _ _ _ hold hstep hunchanged => hold.step hstep hunchanged
    intro w hinit
    obtain ⟨-, hpending, hgranted⟩ := hinit
    constructor
    · intro p issue hissue
      rw [hpending p] at hissue
      cases hissue
    · intro grant hgrant
      rw [hgranted] at hgrant
      cases hgrant
  exact hopen.granted

/-- The request an agent issues for the thread, in a pull request without a stack. -/
def threadIssue (agentId token : String) : IssueArgs where
  repo := "octo/example"
  prNumber := "102"
  role := "fixer"
  agentId := agentId
  itemId := "thread"
  now := 0
  token := token
  workspaceDir := "/w"
  observed := {
    availability := .absent, repo := "octo/example", selectedPrNumber := "102"
    observedAt := "2026-08-01T12:00:00Z" }
  canonical := []

/-- The store with the open thread. -/
def threadStore? : StoreResult Store := commitSession blankStore threadSession [] [] 1

/-- No process has selected anything. -/
def idleRun (store : Store) : IssueRun Bool where
  store := store
  pending _ := none
  granted := []

/-- What accepting the response to a claim makes of the session, once its checks have passed. -/
def acceptClarification (claim : PendingClaim) : Mutation Unit := fun current =>
  match current.leases[claim.leaseId]?, current.items["thread"]? with
  | some lease, some item =>
      let submitted := { lease with status := .submitted, submittedAt := some 1 }
      let current := { current with leases := current.leases.insert claim.leaseId submitted }
      let prepared : PreparedSubmission := {
        leaseId := claim.leaseId, lease, itemId := "thread", item
        expectedRequestHash := lease.requestHash }
      .ok ((finishAcceptance (acceptLease current claim.leaseId 1).1
        (clarification claim.requestId claim.leaseId claim.agentId) prepared 1).1, ())
  | _, _ => .error "LEASE_NOT_FOUND"

/-- The acceptance of the response to the claim that is pending for a process. -/
def acceptPending (w : IssueRun Bool) (p : Bool) : Option (Label Bool) :=
  (w.pending p).map fun issue =>
    .write (.transact (acceptClarification issue.claim) none [])

theorem threadStore_initial {store : Store} (h : threadStore? = .ok store) :
    Initial (idleRun store) :=
  ⟨.bootstrap h, fun _ => rfl, rfl⟩

/-- One agent selects the thread and claims it. -/
def undisturbedClaim : List (Label Bool) :=
  [.select true (threadIssue "first" "1"), .grant true]

theorem granted_items_open_undisturbedClaim : ∃ w,
    (issuing Bool).ReachableUnder GrantsUnchanged w ∧ w.granted ≠ [] ∧
      ∀ grant ∈ w.granted, ∃ item, grant.read = some item ∧ itemIsOpen item = true := by
  have hruns : threadStore?.toOption.any (fun store =>
      (TransitionSystem.run (fun w label => (step w label).filter fun w' =>
        GrantsUnchanged w label w') (idleRun store) undisturbedClaim).any fun w =>
          w.granted ≠ []) = true := by
    decide +kernel
  obtain ⟨store, hstore, hruns⟩ := StoreResult.exists_ok hruns
  obtain ⟨w, hrun, hgranted⟩ := (Option.any_eq_true _ _).mp hruns
  have hreach : (issuing Bool).ReachableUnder GrantsUnchanged w :=
    TransitionSystem.reachableUnder_of_run _ (.start (threadStore_initial hstore)) hrun
  exact ⟨w, hreach, of_decide_eq_true hgranted, granted_items_open hreach⟩

/-- The second claim is on a thread whose response is accepted, and puts it back to claimed. -/
theorem overtakenClaim_grants_accepted_item :
    ¬ ∀ w, (issuing Bool).Reachable w →
      ∀ grant ∈ w.granted, ∃ item, grant.read = some item ∧ itemIsOpen item = true := by
  intro hclaim
  have hruns : threadStore?.toOption.any (fun store =>
      (TransitionSystem.run step (idleRun store)
        [.select true (threadIssue "first" "1"), .select false (threadIssue "second" "2")]).any
        fun selected => (acceptPending selected true).any fun accept =>
          (TransitionSystem.run step selected [.grant true, accept, .grant false]).any fun w =>
            w.granted.any (·.read.any fun item =>
                item.get "state" = .str "publish_ready" && !itemIsOpen item) &&
              (loadSnapshot w.store).toOption.any fun session =>
                session.items["thread"]?.any (·.get "state" = .str "claimed")) = true := by
    decide +kernel
  obtain ⟨store, hstore, hruns⟩ := StoreResult.exists_ok hruns
  obtain ⟨selected, hselected, hruns⟩ := (Option.any_eq_true _ _).mp hruns
  obtain ⟨accept, -, hruns⟩ := (Option.any_eq_true _ _).mp hruns
  obtain ⟨w, hrun, hfacts⟩ := (Option.any_eq_true _ _).mp hruns
  obtain ⟨haccepted, -⟩ := (Bool.and_eq_true _ _).mp hfacts
  have hreach : (issuing Bool).Reachable selected :=
    TransitionSystem.reachable_of_run _ (.start (threadStore_initial hstore)) hselected
  obtain ⟨grant, hgrant, hread⟩ := List.any_eq_true.mp haccepted
  obtain ⟨item, hitem, hclosed⟩ := (Option.any_eq_true _ _).mp hread
  obtain ⟨found, hfound, hopen⟩ := hclaim w (TransitionSystem.reachable_of_run _ hreach hrun)
    grant hgrant
  obtain rfl := Option.some.inj (hitem.symm.trans hfound)
  simp [hopen] at hclosed

end GhAddressCr.ClaimEligibility
