import GhAddressCr.SessionViews

/-!
# Writes of a session

The transactions by which commands change the session of a store. None of them plans a
side effect.
-/
namespace GhAddressCr.RuntimeStore

/-- A write of the session by some command. -/
inductive SessionWrite where
  | transact (mutation : Mutation Unit) (expected : Option Nat) (evidence : List EvidenceRecord)
  | workingSet (request : WorkingSetRequest) (mutation : Mutation Unit) (expected : Option Nat)
      (evidence : List EvidenceRecord)
  | replace (payload : Session) (expected : Option Nat) (evidence : List EvidenceRecord)

namespace SessionWrite

def apply (store : Store) : SessionWrite → StoreResult Store
  | .transact mutation expected evidence =>
      (RuntimeStore.transact store mutation expected evidence).map (·.1)
  | .workingSet request mutation expected evidence =>
      (RuntimeStore.transactWorkingSet store request mutation expected evidence).map (·.1)
  | .replace payload expected evidence =>
      (RuntimeStore.replace store payload expected evidence).map (·.1)

/-- The revision the write is to follow. -/
def expected : SessionWrite → Option Nat
  | .transact _ expected _ | .workingSet _ _ expected _ | .replace _ expected _ => expected

/-- A working-set mutation leaves the session its id. -/
def keepsSession (store : Store) : SessionWrite → Bool
  | .workingSet request mutation _ _ =>
      match loadWorkingSet store request with
      | .ok current =>
          match mutation current.session with
          | .ok (session, _) => sessionId session.root == sessionId store.root
          | .error _ => true
      | .error _ => true
  | _ => true

end SessionWrite

/-- The committed store is the next revision of the store, and keeps its evidence. -/
structure Follows (store committed : Store) : Prop where
  latest : committed.latestRevision = store.latestRevision + 1
  session : committed.sessionRevision = committed.latestRevision
  evidence : ∃ added, committed.evidence = store.evidence ++ added

theorem commitSession_follows {store committed : Store} {session : Session}
    {evidence : List EvidenceRecord} {outbox : List OutboxCommand} {revision : Nat}
    (hrevision : revision = store.latestRevision + 1)
    (h : commitSession store session evidence outbox revision = .ok committed) :
    Follows store committed := by
  obtain ⟨written, added, final, hwritten, -, hfinal, rfl⟩ := commitSession_ok h
  unfold writeOutbox at hfinal
  obtain ⟨rows, -, hfinal⟩ := StoreResult.bind_ok.mp hfinal
  have hfinal := StoreResult.pure_ok.mp hfinal
  subst hfinal
  exact ⟨hrevision, (writeSession_ok hwritten).2.2.1, added, rfl⟩

theorem writeWorkingSet_sessionRevision {store written : Store} {session : Session}
    {storedItems : Rows ItemRow} {storedLeases : Rows LeaseRow} {revision : Nat}
    (hkeeps : sessionId session.root = sessionId store.root)
    (h : writeWorkingSet store session storedItems storedLeases revision = .ok written) :
    written.sessionRevision = revision := by
  unfold writeWorkingSet at h
  obtain ⟨_, _, h⟩ := StoreResult.bind_ok.mp h
  obtain ⟨_, _, h⟩ := StoreResult.bind_ok.mp h
  obtain ⟨_, _, h⟩ := StoreResult.bind_ok.mp h
  rw [if_pos hkeeps] at h
  obtain ⟨_, _, h⟩ := StoreResult.bind_ok.mp h
  obtain ⟨_, _, h⟩ := StoreResult.bind_ok.mp h
  obtain ⟨_, _, h⟩ := StoreResult.bind_ok.mp h
  have hwritten := StoreResult.pure_ok.mp h
  subst hwritten
  rfl

theorem SessionWrite.apply_outbox {store store' : Store} {write : SessionWrite}
    (h : write.apply store = .ok store') : store'.outbox = store.outbox := by
  cases write with
  | transact mutation expected evidence =>
      obtain ⟨result, htransact⟩ := StoreResult.map_fst_ok h
      obtain ⟨current, session, -, -, -, hcommit, -, -⟩ := transact_ok htransact
      exact commitSession_outbox hcommit
  | workingSet request mutation expected evidence =>
      obtain ⟨result, htransact⟩ := StoreResult.map_fst_ok h
      obtain ⟨current, session, written, added, final, -, -, -, hwritten, -, hfinal, rfl, -⟩ :=
        transactWorkingSet_ok htransact
      rw [writeOutbox_nil] at hfinal
      have hfinal := Except.ok.inj hfinal
      subst hfinal
      exact (writeWorkingSet_ok hwritten).1
  | replace payload expected evidence =>
      obtain ⟨revision, hreplace⟩ := StoreResult.map_fst_ok h
      obtain ⟨-, hcommit, -⟩ := replace_ok hreplace
      exact commitSession_outbox hcommit

theorem SessionWrite.apply_follows {store store' : Store} {write : SessionWrite}
    (hrevision : store.sessionRevision = store.latestRevision)
    (hkeeps : write.keepsSession store = true) (h : write.apply store = .ok store') :
    Follows store store' ∧ ∀ token, write.expected = some token → token = store.latestRevision := by
  cases write with
  | transact mutation expected evidence =>
      obtain ⟨result, htransact⟩ := StoreResult.map_fst_ok h
      obtain ⟨current, session, -, hexpected, -, hcommit, -, -⟩ := transact_ok htransact
      rw [hrevision] at hexpected hcommit
      exact ⟨commitSession_follows rfl hcommit, hexpected⟩
  | workingSet request mutation expected evidence =>
      obtain ⟨result, htransact⟩ := StoreResult.map_fst_ok h
      obtain ⟨current, session, written, added, final, hcurrent, hexpected, hmutation, hwritten,
        -, hfinal, rfl, -⟩ := transactWorkingSet_ok htransact
      rw [writeOutbox_nil] at hfinal
      have hfinal := Except.ok.inj hfinal
      subst hfinal
      have hsame : sessionId session.root = sessionId store.root := by
        simpa [keepsSession, hcurrent, hmutation] using hkeeps
      have hsession := writeWorkingSet_sessionRevision hsame hwritten
      rw [hrevision] at hexpected hsession ⊢
      exact ⟨⟨rfl, hsession, added, rfl⟩, hexpected⟩
  | replace payload expected evidence =>
      obtain ⟨revision, hreplace⟩ := StoreResult.map_fst_ok h
      obtain ⟨hexpected, hcommit, -⟩ := replace_ok hreplace
      exact ⟨commitSession_follows rfl hcommit, hexpected⟩

end GhAddressCr.RuntimeStore
