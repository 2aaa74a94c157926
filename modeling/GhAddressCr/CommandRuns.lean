import GhAddressCr.ItemIntake
import GhAddressCr.LeaseLifecycle

/-!
# Runs of commands

Commands of any number of processes change the committed session one after another. A command
that saves a copy it has loaded does so at the revision it loaded, so each write is a change of
the session committed by then. Two commands make several writes and remember something in
between: a batch claim takes its leases back when its files cannot be written, and a one-shot
command looks for a lease of its own before it claims one.
-/
namespace GhAddressCr

open PyText GithubThreadState RuntimeStore AuditedTable

/-- A write of one command. -/
inductive SessionOp where
  /-- `issue_action_request` claims, whatever session it selected the item on. -/
  | claim (pending : PendingClaim)
  /-- It is refused, and saves the session it has loaded. -/
  | refuse (args : IssueArgs)
  /-- It hands a claim back whose request it has rebuilt. -/
  | reenter (args : IssueArgs) (files : FileSystem)
  /-- `submit_action_response` is rejected before its transaction. -/
  | reject (submission : ResponseSubmission)
  /-- Its transaction, after checks on whatever session it had loaded. -/
  | accept (metadata : Option Dict) (submission : ResponseSubmission) (response : Dict)
  /-- `submit_batch_action_response`. -/
  | answerBatch (submission : BatchSubmission)
  | reclaim (now : Int)
  | releaseClaimed (leaseId : String) (now : Int) (reason : String)
  /-- `fast_fix_matching_threads` releases the agent's leases on stale threads. -/
  | releaseStale (itemIds : List String) (agentId : String) (now : Int)
  | classify (args : ClassifyArgs)
  | reopen (itemId : String) (now : Int)
  | refresh (threads : List Dict) (currentLogin : Option String)
  | ingest (findings : List LocalFinding) (source : String) (sync : Bool) (now : Int)
  | publish (replies : List (String × String)) (login : String) (now : Int)
  | note (itemId : String) (written : ItemNote)
  /-- Metrics, metadata and the other root fields. -/
  | describe (field : String) (value : Value)

namespace SessionOp

/-- The session the command saves, if it saves one. -/
def apply (session : Session) : SessionOp → Option Session
  | .claim pending => (commitClaim pending session).toOption.map (·.1)
  | .refuse args =>
      match selectForClaim session args with
      | .refused session _ => some session
      | _ => none
  | .reenter args files => (reenterClaim session args files).toOption.bind (·.rebuilt)
  | .reject submission =>
      match preflightSubmission session submission with
      | (session, .error (.rejected _)) => some session
      | _ => none
  | .accept metadata submission response =>
      (acceptMutation metadata submission response session).toOption.map (·.1)
  | .answerBatch submission =>
      match submitBatch session submission with
      | (_, .error .escaped) => none
      | (session, _) => some session
  | .reclaim now => (reclaimLeases now session).toOption.map (·.1)
  | .releaseClaimed leaseId now reason => some (releaseClaimedLease session leaseId now reason).1
  | .releaseStale itemIds agentId now =>
      some (itemIds.foldl (fun session itemId => releaseSelfStaleLease session itemId agentId now)
        session)
  | .classify args => (recordClassification args session).toOption.map (·.1)
  | .reopen itemId now => (reopenResolvedThreadForReply itemId now session).toOption.map (·.1)
  | .refresh threads currentLogin => some (sessionWithRemoteThreads session threads currentLogin)
  | .ingest findings source sync now =>
      some (ingestNativeFindings session findings source sync now)
  | .publish replies login now => some (publishItems session replies login now)
  | .note itemId written => some (session.modifyItem itemId written.write)
  | .describe field value =>
      if field = "session_id" then none
      else some { session with root := session.root.set field value }

/-- A new lease gets an id that was never used. -/
def hasFreshId (session : Session) : SessionOp → Prop
  | .claim pending => FreshLeaseId session pending.leaseId
  | _ => True

end SessionOp

instance (session : Session) (id : String) : Decidable (FreshLeaseId session id) :=
  decidable_of_iff (id ≠ "" ∧ session.leases[id]? = none ∧
      ∀ entry ∈ (auditedLeases session).log, entry.1 ≠ id)
    ⟨fun h => ⟨h.1, h.2.1, h.2.2⟩, fun h => ⟨h.nonempty, h.unused, h.unlogged⟩⟩

instance (session : Session) (op : SessionOp) : Decidable (op.hasFreshId session) := by
  cases op <;> unfold SessionOp.hasFreshId <;> infer_instance

/-- The items a batch claim goes through. -/
def batchTargets (session : Session) (args : BatchArgs) : List String :=
  selectBatchTargetItems
    (expireAndReturn (applyMetadataDelta session args.metadata) args.now) args

/-- The ids of a batch claim were never used, and differ. -/
structure FreshTokens (session : Session) (args : BatchArgs) : Prop where
  fresh : ∀ itemId ∈ batchTargets session args, FreshLeaseId session (args.leaseId itemId)
  distinct : ((batchTargets session args).map args.leaseId).Nodup

instance (session : Session) (args : BatchArgs) : Decidable (FreshTokens session args) :=
  decidable_of_iff ((∀ itemId ∈ batchTargets session args,
      FreshLeaseId session (args.leaseId itemId)) ∧
      ((batchTargets session args).map args.leaseId).Nodup)
    ⟨fun h => ⟨h.1, h.2⟩, fun h => ⟨h.fresh, h.distinct⟩⟩

/-- Where a process stands between two writes. -/
inductive Activity where
  | idle
  /-- A batch claim has committed, and its files are being written. -/
  | materializing (plans : List ArtifactPlan)
  /-- `claimed_fixer_lease` has looked for a lease of the agent on the item. -/
  | claiming (itemId agentId : String) (preexisting : Option String)
  /-- It has a lease, and its body runs. -/
  | holding (preexisting : Option String) (leaseId : String) (acquisition : Acquisition)

/-- The committed session, and where each process stands. -/
structure CommandRun (P : Type) where
  session : Session
  activity : P → Activity

inductive CommandLabel (P : Type) where
  /-- Any process makes a single write. -/
  | perform (op : SessionOp)
  | claimBatch (p : P) (args : BatchArgs)
  /-- The files of a batch are written, or the process ends without more ado. -/
  | leaveBatch (p : P)
  /-- Writing the files fails. -/
  | compensate (p : P)
  /-- `claimed_fixer_lease` loads the session. -/
  | beginOneShot (p : P) (itemId agentId : String)
  | claimOneShot (p : P) (claim : PendingClaim)
  | reenterOneShot (p : P) (args : IssueArgs) (files : FileSystem)
  /-- The one-shot command ends without a `WorkflowError`, or never gets its lease. -/
  | leaveOneShot (p : P)
  /-- Its body raises a `WorkflowError`. -/
  | rollback (p : P) (now : Int) (reasonCode : String)

namespace CommandRun

variable {P : Type} [DecidableEq P]

def setActivity (run : CommandRun P) (p : P) (activity : Activity) : CommandRun P :=
  { run with activity := Function.update run.activity p activity }

/-- The run after a commit of the session, with its claims projected as every load shows them. -/
def commit (run : CommandRun P) (session : Session) : Option (CommandRun P) :=
  (committedView session).toOption.map fun session => { run with session }

/-- The lease `claimed_fixer_lease` finds before it claims. -/
def preexistingLease (session : Session) (itemId agentId : String) : Option String :=
  (activeFixerLeaseForItem session itemId (some agentId)).map (·.leaseId)

/-- The rollback of `claimed_fixer_lease`: a lease found before the claim stays. -/
def rollbackOneShot (session : Session) (preexisting : Option String) (leaseId : String)
    (now : Int) (reasonCode : String) : Session :=
  if preexisting = some leaseId then session
  else (releaseClaimedLease session leaseId now ("action_rejected:" ++ reasonCode)).1

/-- One write of one process, if it can be made. -/
def next (run : CommandRun P) : CommandLabel P → Option (CommandRun P)
  | .perform op =>
      if op.hasFreshId run.session then (op.apply run.session).bind run.commit else none
  | .claimBatch p args =>
      match run.activity p with
      | .idle =>
          if FreshTokens run.session args then
            match commitBatch args run.session with
            | .error _ => none
            | .ok (session, transition) =>
                (run.commit session).map (·.setActivity p (.materializing transition.plans))
          else none
      | _ => none
  | .leaveBatch p =>
      match run.activity p with
      | .materializing _ => some (run.setActivity p .idle)
      | _ => none
  | .compensate p =>
      match run.activity p with
      | .materializing plans =>
          match compensateBatch plans run.session with
          | .error _ => none
          | .ok (session, ()) => (run.commit session).map (·.setActivity p .idle)
      | _ => none
  | .beginOneShot p itemId agentId =>
      match run.activity p with
      | .idle => some (run.setActivity p
          (.claiming itemId agentId (preexistingLease run.session itemId agentId)))
      | _ => none
  | .claimOneShot p claim =>
      match run.activity p with
      | .claiming itemId agentId preexisting =>
          if claim.itemId = itemId ∧ claim.agentId = agentId ∧ claim.role = "fixer" ∧
              FreshLeaseId run.session claim.leaseId then
            match commitClaim claim run.session with
            | .error _ => none
            | .ok (session, _) => (run.commit session).map
                (·.setActivity p (.holding preexisting claim.leaseId .created))
          else none
      | _ => none
  | .reenterOneShot p args files =>
      match run.activity p with
      | .claiming itemId agentId preexisting =>
          if args.itemId = itemId ∧ args.agentId = agentId ∧ args.role = "fixer" then
            match reenterClaim run.session args files with
            | .error _ => none
            | .ok reentry =>
                let held := Activity.holding preexisting reentry.lease.leaseId .reentered
                match reentry.rebuilt with
                | some session => (run.commit session).map (·.setActivity p held)
                | none => some (run.setActivity p held)
          else none
      | _ => none
  | .leaveOneShot p =>
      match run.activity p with
      | .claiming .. | .holding .. => some (run.setActivity p .idle)
      | _ => none
  | .rollback p now reasonCode =>
      match run.activity p with
      | .holding preexisting leaseId _ =>
          (run.commit (rollbackOneShot run.session preexisting leaseId now reasonCode)).map
            (·.setActivity p .idle)
      | _ => none

/-- The session of a new pull request (`SessionManager.create`). -/
structure IsFresh (session : Session) : Prop where
  items : session.items = ∅
  leases : session.leases = ∅
  leaseEvents : session.leaseEvents = []

/-- The runs of commands from a fresh session, with every process idle. -/
def commands : TransitionSystem (CommandRun P) (CommandLabel P) :=
  .ofNext (fun run => IsFresh run.session ∧ run.activity = fun _ => .idle) next

/-- The session that a step commits, before its claims are projected. -/
inductive Writes (run : CommandRun P) : CommandLabel P → Session → Prop where
  | perform (op : SessionOp) (session : Session) :
      op.hasFreshId run.session → op.apply run.session = some session →
      Writes run (.perform op) session
  | claimBatch (p : P) (args : BatchArgs) (session : Session) (transition : BatchTransition) :
      FreshTokens run.session args → commitBatch args run.session = .ok (session, transition) →
      Writes run (.claimBatch p args) session
  | compensate (p : P) (plans : List ArtifactPlan) :
      run.activity p = .materializing plans →
      Writes run (.compensate p)
        (rollbackNewlyLeasedItems run.session (createdRows run.session plans))
  | claimOneShot (p : P) (claim : PendingClaim) (session : Session) (lease : Lease) :
      FreshLeaseId run.session claim.leaseId → commitClaim claim run.session = .ok (session, lease) →
      Writes run (.claimOneShot p claim) session
  | reenterOneShot (p : P) (args : IssueArgs) (files : FileSystem) (reentry : Reentry)
      (session : Session) :
      reenterClaim run.session args files = .ok reentry → reentry.rebuilt = some session →
      Writes run (.reenterOneShot p args files) session
  | rollback (p : P) (preexisting : Option String) (leaseId : String) (acquisition : Acquisition)
      (now : Int) (reasonCode : String) :
      run.activity p = .holding preexisting leaseId acquisition →
      Writes run (.rollback p now reasonCode)
        (rollbackOneShot run.session preexisting leaseId now reasonCode)

omit [DecidableEq P] in
theorem commit_some {run run' : CommandRun P} {session : Session}
    (h : run.commit session = some run') :
    committedView session = .ok run'.session ∧ run'.activity = run.activity := by
  unfold commit at h
  cases hview : committedView session with
  | error e => simp [hview, Except.toOption] at h
  | ok view =>
      simp only [hview, Except.toOption, Option.map_some, Option.some.injEq] at h
      subst h
      exact ⟨rfl, rfl⟩

theorem commit_map {run run' : CommandRun P} {session : Session} {p : P} {activity : Activity}
    (h : (run.commit session).map (·.setActivity p activity) = some run') :
    committedView session = .ok run'.session ∧
      run'.activity = Function.update run.activity p activity := by
  obtain ⟨committed, hcommit, rfl⟩ := Option.map_eq_some_iff.mp h
  obtain ⟨hview, hactivity⟩ := commit_some hcommit
  exact ⟨hview, by simp only [setActivity, hactivity]⟩

/-- A step leaves the session alone, which no single write does, or commits what its label
says. -/
theorem next_writes {run run' : CommandRun P} {label : CommandLabel P}
    (h : run.next label = some run') :
    (run'.session = run.session ∧ ∀ op, label ≠ .perform op) ∨
      ∃ session, Writes run label session ∧ committedView session = .ok run'.session := by
  cases label with
  | perform op =>
      simp only [next] at h
      split at h
      · next hfresh =>
        obtain ⟨session, happly, hcommit⟩ := Option.bind_eq_some_iff.mp h
        exact Or.inr ⟨session, .perform op session hfresh happly, (commit_some hcommit).1⟩
      · cases h
  | claimBatch p args =>
      simp only [next] at h
      split at h
      · split at h
        · next hfresh =>
          split at h
          · cases h
          · next session transition hbatch =>
            exact Or.inr ⟨session, .claimBatch p args session transition hfresh hbatch,
              (commit_map h).1⟩
        · cases h
      · cases h
  | leaveBatch p =>
      simp only [next] at h
      split at h
      · exact Or.inl ⟨by rw [← Option.some.inj h]; rfl, by simp⟩
      · cases h
  | compensate p =>
      simp only [next] at h
      split at h
      · next plans hactivity =>
        exact Or.inr ⟨_, .compensate p plans hactivity, (commit_map h).1⟩
      · cases h
  | beginOneShot p itemId agentId =>
      simp only [next] at h
      split at h
      · exact Or.inl ⟨by rw [← Option.some.inj h]; rfl, by simp⟩
      · cases h
  | claimOneShot p claim =>
      simp only [next] at h
      split at h
      · split at h
        · next hclaim =>
          split at h
          · cases h
          · next session lease hcommit =>
            exact Or.inr ⟨session, .claimOneShot p claim session lease hclaim.2.2.2 hcommit,
              (commit_map h).1⟩
        · cases h
      · cases h
  | reenterOneShot p args files =>
      simp only [next] at h
      split at h
      · split at h
        · split at h
          · cases h
          · next reentry hreenter =>
            split at h
            · next session hrebuilt =>
              exact Or.inr ⟨session, .reenterOneShot p args files reentry session hreenter hrebuilt,
                (commit_map h).1⟩
            · exact Or.inl ⟨by rw [← Option.some.inj h]; rfl, by simp⟩
        · cases h
      · cases h
  | leaveOneShot p =>
      simp only [next] at h
      split at h
      · exact Or.inl ⟨by rw [← Option.some.inj h]; rfl, by simp⟩
      · exact Or.inl ⟨by rw [← Option.some.inj h]; rfl, by simp⟩
      · cases h
  | rollback p now reasonCode =>
      simp only [next] at h
      split at h
      · next preexisting leaseId acquisition hactivity =>
        exact Or.inr ⟨_, .rollback p preexisting leaseId acquisition now reasonCode hactivity,
          (commit_map h).1⟩
      · cases h

end CommandRun
end GhAddressCr
