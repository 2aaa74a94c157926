import Mathlib.Data.List.Pairwise
import GhAddressCr.BatchSubmission
import GhAddressCr.RejectedSubmissions

/-!
# Batches are accepted whole

The preflight of a batch asks what the submission of each of its leases asks, and its rows are
on different items, so accepting one row cannot make another fail. A rejected batch accepts
nothing, but gives up its rows when their requests can no longer be answered.
-/
namespace GhAddressCr

open PyText GithubThreadState RuntimeStore

/-- The row's lease and item are as the preflight found them, and the lease takes its
response. -/
structure ReadyRow (s : Session) (now : Int) (row : PreparedRow) : Prop where
  lease : s.leases[row.prepared.leaseId]? = some row.prepared.lease
  item : s.items[row.prepared.itemId]? = some row.prepared.item
  held : row.prepared.lease.itemId = row.prepared.itemId
  fixer : row.prepared.lease.role = .fixer
  passes : leaseSubmissionRejectionReason row.response row.prepared now = none

theorem ReadyRow.congr {s s' : Session} {now : Int} {row : PreparedRow} (h : ReadyRow s now row)
    (hlease : s'.leases[row.prepared.leaseId]? = s.leases[row.prepared.leaseId]?)
    (hitem : s'.items[row.prepared.itemId]? = s.items[row.prepared.itemId]?) :
    ReadyRow s' now row :=
  ⟨hlease.trans h.lease, hitem.trans h.item, h.held, h.fixer, h.passes⟩

theorem ReadyRow.notes {s s' : Session} {now : Int} {row : PreparedRow} (h : ReadyRow s now row)
    (hnotes : NotesOnly s s') : ReadyRow s' now row :=
  h.congr (by rw [hnotes.leases]) (by rw [hnotes.items])

/-- What the lease of a ready row satisfies. -/
theorem ReadyRow.terms {s : Session} {now : Int} {row : PreparedRow} (h : ReadyRow s now row) :
    row.prepared.lease.status = .active ∧ isExpired row.prepared.lease now = false ∧
      row.prepared.lease.agentId = (row.response.get "agent_id").text ∧
      row.prepared.lease.requestHash = row.prepared.expectedRequestHash := by
  have hpasses := h.passes
  unfold leaseSubmissionRejectionReason at hpasses
  simp only at hpasses
  split at hpasses
  · simp at hpasses
  · split at hpasses
    · simp at hpasses
    · next hactive =>
      split at hpasses
      · simp at hpasses
      · next hexpired =>
        split at hpasses
        · simp at hpasses
        · next hagent =>
          split at hpasses
          · simp at hpasses
          · split at hpasses
            · simp at hpasses
            · next hhash =>
              exact ⟨by simpa using hactive, by simpa using hexpired, by simpa using hagent,
                by simpa using hhash⟩

/-- Two rows on different items have different leases. -/
theorem ReadyRow.lease_ne {s : Session} {now : Int} {row other : PreparedRow}
    (h : ReadyRow s now row) (h' : ReadyRow s now other)
    (hne : row.prepared.itemId ≠ other.prepared.itemId) :
    row.prepared.leaseId ≠ other.prepared.leaseId := by
  intro hsame
  have hlease : row.prepared.lease = other.prepared.lease := by
    have hfound := h.lease
    rw [hsame, h'.lease] at hfound
    exact (Option.some.inj hfound).symm
  exact hne (by rw [← h.held, ← h'.held, hlease])

/-- The rows are on different items. -/
def DistinctItems (rows : List PreparedRow) : Prop :=
  rows.Pairwise fun row other => row.prepared.itemId ≠ other.prepared.itemId

theorem batchRowReason_none {rows : List PreparedRow} {response : Dict}
    {prepared : PreparedSubmission} (h : batchRowReason rows response prepared = none) :
    (∀ row ∈ rows, row.prepared.itemId ≠ prepared.itemId) ∧ prepared.lease.role = .fixer ∧
      prepared.item.get "item_kind" = .str "github_thread" := by
  unfold batchRowReason at h
  split at h
  · simp at h
  · next hdistinct =>
    split at h
    · simp at h
    · next hkind =>
      split at h
      · simp at h
      · next hrole => exact ⟨by simpa using hdistinct, by simpa using hrole, by simpa using hkind⟩

theorem preflightRow_ok {submission : BatchSubmission} {s s' : Session} (hkeyed : LeasesKeyed s)
    {rows : List PreparedRow} {response : Dict} {row : PreparedRow}
    (h : preflightRow submission s rows response = (s', .ok row)) :
    s' = s ∧ ReadyRow s submission.now row ∧
      row.prepared.item.get "item_kind" = .str "github_thread" ∧
      ∀ other ∈ rows, other.prepared.itemId ≠ row.prepared.itemId := by
  unfold preflightRow at h
  simp only at h
  split at h
  · simp [rejectResponse] at h
  · split at h
    · simp at h
    · next session expanded prepared hprepared =>
      split at h
      · simp [rejectResponse] at h
      · next hreason =>
        split at h
        · simp [rejectResponse] at h
        · next hpasses =>
          simp only [Prod.mk.injEq, Except.ok.injEq] at h
          obtain ⟨rfl, rfl⟩ := h
          have hfrom := prepare_from hkeyed hprepared
          obtain ⟨hdistinct, hrole, hkind⟩ := batchRowReason_none hreason
          exact ⟨prepare_same hprepared, ⟨hfrom.lease, hfrom.item, hfrom.held, hrole, hpasses⟩,
            hkind, hdistinct⟩

theorem preflightRow_notes (submission : BatchSubmission) (s : Session) (rows : List PreparedRow)
    (response : Dict) : NotesOnly s (preflightRow submission s rows response).1 := by
  have hprepare := (prepare_notes s submission.files response submission.now).1
  unfold preflightRow
  simp only
  split
  · exact rejectResponse_notes s _ _ _
  · split
    · next session stop hprepared =>
      rw [hprepared] at hprepare
      exact hprepare
    · next session expanded prepared hprepared =>
      rw [hprepared] at hprepare
      split
      · exact hprepare.trans (rejectResponse_notes session _ _ _)
      · split
        · exact hprepare.trans (rejectResponse_notes session _ _ _)
        · exact hprepare

/-- The rows that have passed are ready and on different items. -/
structure ReadyRows (s : Session) (now : Int) (rows : List PreparedRow) : Prop where
  ready : ∀ row ∈ rows, ReadyRow s now row
  threads : ∀ row ∈ rows, row.prepared.item.get "item_kind" = .str "github_thread"
  distinct : DistinctItems rows

theorem ReadyRows.append {s : Session} {now : Int} {rows : List PreparedRow} {row : PreparedRow}
    (h : ReadyRows s now rows) (hrow : ReadyRow s now row)
    (hkind : row.prepared.item.get "item_kind" = .str "github_thread")
    (hdistinct : ∀ other ∈ rows, other.prepared.itemId ≠ row.prepared.itemId) :
    ReadyRows s now (rows ++ [row]) where
  ready := by
    intro other hmem
    rcases List.mem_append.mp hmem with hmem | hmem
    · exact h.ready other hmem
    · obtain rfl := List.mem_singleton.mp hmem
      exact hrow
  threads := by
    intro other hmem
    rcases List.mem_append.mp hmem with hmem | hmem
    · exact h.threads other hmem
    · obtain rfl := List.mem_singleton.mp hmem
      exact hkind
  distinct := by
    refine List.pairwise_append.mpr ⟨h.distinct, List.pairwise_singleton _ _, ?_⟩
    intro other hmem last hlast
    obtain rfl := List.mem_singleton.mp hlast
    exact hdistinct other hmem

theorem preflightRows_spec (submission : BatchSubmission) {s : Session} (hkeyed : LeasesKeyed s)
    (responses : List Dict) {rows : List PreparedRow} (hrows : ReadyRows s submission.now rows) :
    NotesOnly s (preflightRows submission s rows responses).session ∧
      ReadyRows s submission.now (preflightRows submission s rows responses).rows ∧
      ((preflightRows submission s rows responses).stop = none →
        (preflightRows submission s rows responses).rows.length =
          rows.length + responses.length) := by
  induction responses generalizing rows with
  | nil => exact ⟨.refl s, hrows, fun _ => rfl⟩
  | cons response responses ih =>
      have hnotes := preflightRow_notes submission s rows response
      unfold preflightRows
      split
      · next session stop hrow =>
        rw [hrow] at hnotes
        exact ⟨hnotes, hrows, fun h => by cases h⟩
      · next session row hrow =>
        obtain ⟨rfl, hready, hkind, hdistinct⟩ := preflightRow_ok hkeyed hrow
        obtain ⟨hstage, hstageRows, hlength⟩ := ih (hrows.append hready hkind hdistinct)
        refine ⟨hstage, hstageRows, fun hstop => ?_⟩
        rw [hlength hstop, List.length_append, List.length_singleton, List.length_cons]
        omega

/-- The row with its binding. -/
def Carries (row row' : PreparedRow) : Prop :=
  row'.prepared = row.prepared ∧ row'.response.get "agent_id" = row.response.get "agent_id"

theorem bindRow_ok {submission : BatchSubmission} {s s' : Session} {row row' : PreparedRow}
    (h : bindRow submission s row = (s', .ok row')) : NotesOnly s s' ∧ Carries row row' := by
  unfold bindRow at h
  simp only at h
  split at h
  · simp at h
  · next session binding hverified =>
    obtain ⟨-, hnoted⟩ := verifyRevisionBinding_ok hverified
    have hcommit := verifyCitedCommit_notes session (submission.single row.response)
      (row.response.setIfSome "_runtime_revision_binding" (binding.map (·.toValue))) row.prepared
    split at h
    · simp at h
    · next session' hcited =>
      rw [hcited] at hcommit
      simp only [Prod.mk.injEq, Except.ok.injEq] at h
      obtain ⟨rfl, rfl⟩ := h
      refine ⟨hnoted.trans hcommit, rfl, ?_⟩
      unfold Dict.setIfSome
      split <;> simp

/-- A row that fails its binding is noted, and given up where the batch will be. -/
theorem bindRow_error {submission : BatchSubmission} {s s' : Session} {row : PreparedRow}
    {stop : SubmissionStop} (h : bindRow submission s row = (s', .error stop)) :
    ∃ noted, NotesOnly s noted ∧ (s' = noted ∨ ∃ rejection, stop = .rejected rejection ∧
      isIrrecoverableReason rejection.reasonCode = true ∧
      s' = releaseIrrecoverableRequestLease noted row.prepared submission.now) := by
  unfold bindRow at h
  simp only at h
  split at h
  · next session stop' hverified =>
    obtain ⟨rfl, hstop⟩ := Prod.mk.inj h
    obtain rfl := Except.error.inj hstop
    obtain ⟨reasonCode, noted, -, hrejection, hnoted, hsession⟩ :=
      verifyRevisionBinding_error hverified
    refine ⟨noted, hnoted, ?_⟩
    by_cases hirrecoverable : isIrrecoverableReason reasonCode = true
    · rw [if_pos hirrecoverable] at hsession
      exact Or.inr ⟨_, hrejection, hirrecoverable, hsession⟩
    · rw [if_neg hirrecoverable] at hsession
      exact Or.inl hsession
  · next session binding hverified =>
    obtain ⟨-, hnoted⟩ := verifyRevisionBinding_ok hverified
    have hcommit := verifyCitedCommit_notes session (submission.single row.response)
      (row.response.setIfSome "_runtime_revision_binding" (binding.map (·.toValue))) row.prepared
    split at h
    · next session' stop' hcited =>
      rw [hcited] at hcommit
      obtain ⟨rfl, -⟩ := Prod.mk.inj h
      exact ⟨_, hnoted.trans hcommit, Or.inl rfl⟩
    · simp at h

/-- A ready row stays ready with its binding. -/
theorem ReadyRow.carries {s : Session} {now : Int} {row row' : PreparedRow}
    (h : ReadyRow s now row) (hsame : Carries row row') : ReadyRow s now row' := by
  obtain ⟨hprepared, hagent⟩ := hsame
  have hpasses : leaseSubmissionRejectionReason row'.response row'.prepared now =
      leaseSubmissionRejectionReason row.response row.prepared now := by
    unfold leaseSubmissionRejectionReason
    rw [hprepared, hagent]
  exact ⟨by rw [hprepared]; exact h.lease, by rw [hprepared]; exact h.item,
    by rw [hprepared]; exact h.held, by rw [hprepared]; exact h.fixer, hpasses.trans h.passes⟩

/-- Where every binding passes, the session is only noted and the rows carry their bindings. -/
theorem bindRows_ok {submission : BatchSubmission} {s : Session} {bound rows : List PreparedRow}
    (hstop : (bindRows submission s bound rows).stop = none) :
    NotesOnly s (bindRows submission s bound rows).session ∧
      ∃ carried, (bindRows submission s bound rows).rows = bound ++ carried ∧
        carried.map (·.prepared) = rows.map (·.prepared) ∧
        ∀ row' ∈ carried, ∃ row ∈ rows, Carries row row' := by
  induction rows generalizing s bound with
  | nil => exact ⟨.refl s, [], by simp [bindRows], rfl, by simp⟩
  | cons row rows ih =>
      unfold bindRows at hstop ⊢
      split at hstop
      · cases hstop
      · next session row' hrow =>
        obtain ⟨hnotes, hsame⟩ := bindRow_ok hrow
        obtain ⟨hrest, carried, hrows, hprepared, hcarries⟩ := ih hstop
        refine ⟨hnotes.trans hrest, row' :: carried, ?_, ?_, ?_⟩
        · rw [hrows, List.append_assoc]
          rfl
        · rw [List.map_cons, List.map_cons, hprepared, hsame.1]
        · intro other hmem
          rcases List.mem_cons.mp hmem with rfl | hmem
          · exact ⟨row, List.mem_cons_self, hsame⟩
          · obtain ⟨source, hsource, hother⟩ := hcarries other hmem
            exact ⟨source, List.mem_cons_of_mem row hsource, hother⟩

/-- Where a binding fails, the session is noted, and the row given up where the batch will be. -/
theorem bindRows_stop {submission : BatchSubmission} {s : Session} {bound rows : List PreparedRow}
    {stop : SubmissionStop} (hstop : (bindRows submission s bound rows).stop = some stop) :
    ∃ noted, NotesOnly s noted ∧ ((bindRows submission s bound rows).session = noted ∨
      ∃ row ∈ rows, ∃ rejection, stop = .rejected rejection ∧
        isIrrecoverableReason rejection.reasonCode = true ∧
        (bindRows submission s bound rows).session =
          releaseIrrecoverableRequestLease noted row.prepared submission.now) := by
  induction rows generalizing s bound with
  | nil => simp [bindRows] at hstop
  | cons row rows ih =>
      unfold bindRows at hstop ⊢
      split at hstop
      · next session stop' hrow =>
        obtain rfl := Option.some.inj hstop
        obtain ⟨noted, hnotes, hsession⟩ := bindRow_error hrow
        refine ⟨noted, hnotes, ?_⟩
        rcases hsession with hsession | ⟨rejection, hrejection, hirrecoverable, hsession⟩
        · exact Or.inl hsession
        · exact Or.inr ⟨row, List.mem_cons_self, rejection, hrejection, hirrecoverable, hsession⟩
      · next session row' hrow =>
        obtain ⟨hnotes, -⟩ := bindRow_ok hrow
        obtain ⟨noted, hnoted, hsession⟩ := ih hstop
        refine ⟨noted, hnotes.trans hnoted, ?_⟩
        rcases hsession with hsession | ⟨other, hmem, hother⟩
        · exact Or.inl hsession
        · exact Or.inr ⟨other, List.mem_cons_of_mem row hmem, hother⟩

theorem ReadyRows.carried {s s' : Session} {now : Int} {rows carried : List PreparedRow}
    (h : ReadyRows s now rows) (hnotes : NotesOnly s s')
    (hprepared : carried.map (·.prepared) = rows.map (·.prepared))
    (hcarries : ∀ row' ∈ carried, ∃ row ∈ rows, Carries row row') :
    (∀ row ∈ carried, ReadyRow s' now row) ∧ DistinctItems carried := by
  constructor
  · intro row' hmem
    obtain ⟨row, hrow, hsame⟩ := hcarries row' hmem
    exact ((h.ready row hrow).carries hsame).notes hnotes
  · have hitems : carried.map (·.prepared.itemId) = rows.map (·.prepared.itemId) := by
      simpa [Function.comp_def] using congrArg (List.map (·.itemId)) hprepared
    have hdistinct : (rows.map (·.prepared.itemId)).Pairwise (· ≠ ·) :=
      List.pairwise_map.mpr h.distinct
    rw [← hitems] at hdistinct
    exact List.pairwise_map.mp hdistinct

def acceptedLease (lease : Lease) (now : Int) : Lease :=
  { lease with status := .accepted, submittedAt := some now, completedAt := some now }

def submittedLease (lease : Lease) (now : Int) : Lease :=
  { lease with status := .submitted, submittedAt := some now }

/-- What the preflight asks of a lease is what its submission asks. -/
theorem ReadyRow.submitLease {s : Session} {now : Int} {row : PreparedRow}
    (h : ReadyRow s now row) :
    submitLease s row.prepared.leaseId (row.prepared.submitArgs row.response now) =
      (appendLeaseEvent { s with
        leases := s.leases.insert row.prepared.leaseId (submittedLease row.prepared.lease now) }
        (submittedLease row.prepared.lease now) "lease_submitted" now,
        .ok (submittedLease row.prepared.lease now)) := by
  obtain ⟨hactive, hexpired, hagent, hhash⟩ := h.terms
  unfold GhAddressCr.submitLease
  simp only [h.lease]
  rw [if_neg (by simp [hactive]), if_neg (by simp [hactive]),
    if_neg (by simp [PreparedSubmission.submitArgs]),
    if_neg (by simp [PreparedSubmission.submitArgs, hagent]),
    if_neg (by simp [PreparedSubmission.submitArgs, h.held]),
    if_neg (by simp [PreparedSubmission.submitArgs, hexpired]),
    if_neg (by simp [PreparedSubmission.submitArgs, hhash])]
  rfl

/-- The submission of a ready row succeeds, and changes only its lease. -/
theorem ReadyRow.submit {s : Session} {now : Int} {row : PreparedRow} (h : ReadyRow s now row) :
    ∃ s', submitAndAcceptLease s row.prepared.leaseId (row.prepared.submitArgs row.response now) =
        (s', .ok (acceptedLease row.prepared.lease now)) ∧
      Touches s s' row.prepared.leaseId (fun _ => acceptedLease row.prepared.lease now)
        row.prepared.itemId id ∧
      s'.pendingEvidence = s.pendingEvidence := by
  unfold submitAndAcceptLease
  rw [h.submitLease]
  simp only [acceptLease, appendLeaseEvent, Std.ExtTreeMap.getElem?_insert_self]
  rw [if_neg (by simp [submittedLease])]
  refine ⟨_, rfl, ⟨fun _ _ => rfl, ?_, ?_⟩, rfl⟩
  · intro id
    by_cases hid : id = row.prepared.leaseId
    · simp [hid, h.lease, acceptedLease, submittedLease, PreparedSubmission.submitArgs]
    · simp [hid, Ne.symm hid, Std.ExtTreeMap.getElem?_insert]
  · intro id
    simp

/-- The record says that the row's response is accepted. -/
structure RecordsAcceptance (record : EvidenceRecord) (row : PreparedRow) : Prop where
  event : record.eventType = "response_accepted"
  item : record.itemId = row.prepared.itemId
  lease : record.leaseId = some row.prepared.leaseId

/-- A ready row is accepted: its lease ends so, and its item takes the evidence. -/
theorem ReadyRow.accept {s : Session} {now : Int} {row : PreparedRow} (h : ReadyRow s now row) :
    ∃ s' record,
      acceptActionResponseSubmission s row.response row.prepared now =
        (s', .ok (.accepted record)) ∧
      Touches s s' row.prepared.leaseId (fun _ => acceptedLease row.prepared.lease now)
        row.prepared.itemId (fun item => applyResponseToItem item row.response now) ∧
      s'.pendingEvidence = s.pendingEvidence ++ [record] ∧ RecordsAcceptance record row := by
  obtain ⟨submitted, hsubmit, htouches, hpending⟩ := h.submit
  have hverifier : isVerifierRejection row.prepared row.response = false := by
    simp [isVerifierRejection, h.fixer]
  unfold acceptActionResponseSubmission
  rw [hsubmit]
  simp only [finishAcceptance, hverifier, Bool.false_eq_true, if_false]
  have hitem := modifyItem_touches submitted row.prepared.leaseId row.prepared.itemId
    fun item => applyResponseToItem item row.response now
  have hboth := htouches.trans hitem
  refine ⟨_, _, rfl, ⟨hboth.root, hboth.leases, hboth.items⟩, ?_, rfl, rfl, rfl⟩
  simp [Session.appendEvidence, hpending]

/-- Other rows stay ready. -/
theorem ReadyRow.frame {s s' : Session} {now : Int} {row other : PreparedRow}
    {g : Lease → Lease} {f : Dict → Dict} (hrow : ReadyRow s now row)
    (hother : ReadyRow s now other) (hne : row.prepared.itemId ≠ other.prepared.itemId)
    (ht : Touches s s' row.prepared.leaseId g row.prepared.itemId f) : ReadyRow s' now other := by
  refine hother.congr ?_ ?_
  · rw [ht.leases, if_neg (hrow.lease_ne hother hne).symm]
  · rw [ht.items, if_neg hne.symm]

/-- Lease, item and evidence of a row show that its response is accepted. -/
structure AcceptedRow (s : Session) (now : Int) (row : PreparedRow) : Prop where
  lease : s.leases[row.prepared.leaseId]? = some (acceptedLease row.prepared.lease now)
  item : s.items[row.prepared.itemId]? =
    some (applyResponseToItem row.prepared.item row.response now)
  record : ∃ record ∈ s.pendingEvidence, RecordsAcceptance record row

/-- Nothing but the leases and items of the rows has changed. -/
structure OthersKept (s s' : Session) (rows : List PreparedRow) : Prop where
  leases : ∀ id : String, (∀ row ∈ rows, row.prepared.leaseId ≠ id) → s'.leases[id]? = s.leases[id]?
  items : ∀ id : String, (∀ row ∈ rows, row.prepared.itemId ≠ id) → s'.items[id]? = s.items[id]?

/-- Rows that are ready together are all accepted, in any number and order. -/
theorem acceptRows_ok {s : Session} {now : Int} {rows : List PreparedRow}
    (hready : ∀ row ∈ rows, ReadyRow s now row) (hdistinct : DistinctItems rows) :
    ∃ s' acceptances, acceptRows s now rows = (s', .ok acceptances) ∧
      acceptances.length = rows.length ∧ (∀ row ∈ rows, AcceptedRow s' now row) ∧
      OthersKept s s' rows ∧ ∀ record ∈ s.pendingEvidence, record ∈ s'.pendingEvidence := by
  induction rows generalizing s with
  | nil =>
      exact ⟨s, [], rfl, rfl, by simp, ⟨fun _ _ => rfl, fun _ _ => rfl⟩, fun _ hrecord => hrecord⟩
  | cons row rows ih =>
      obtain ⟨hne, hrest⟩ := List.pairwise_cons.mp hdistinct
      have hrow := hready row List.mem_cons_self
      have hothers : ∀ other ∈ rows, ReadyRow s now other :=
        fun other hmem => hready other (List.mem_cons_of_mem row hmem)
      obtain ⟨middle, record, haccept, htouches, hpending, hrecords⟩ := hrow.accept
      obtain ⟨s', acceptances, hacceptRest, hlength, haccepted, hkept, hgrows⟩ :=
        ih (fun other hmem => hrow.frame (hothers other hmem) (hne other hmem) htouches) hrest
      refine ⟨s', .accepted record :: acceptances, ?_, by simp [hlength], ?_, ⟨?_, ?_⟩, ?_⟩
      · simp only [acceptRows, haccept, hacceptRest]
      · intro other hmem
        rcases List.mem_cons.mp hmem with rfl | hmem
        · refine ⟨?_, ?_, record, hgrows record (by simp [hpending]), hrecords⟩
          · rw [hkept.leases _ fun last hlast =>
              (hrow.lease_ne (hothers last hlast) (hne last hlast)).symm, htouches.leases,
              if_pos rfl, hrow.lease, Option.map_some]
          · rw [hkept.items _ fun last hlast => (hne last hlast).symm, htouches.items, if_pos rfl,
              hrow.item, Option.map_some]
        · exact haccepted other hmem
      · intro id hid
        rw [hkept.leases id fun other hmem => hid other (List.mem_cons_of_mem row hmem),
          htouches.leases, if_neg (hid row List.mem_cons_self).symm]
      · intro id hid
        rw [hkept.items id fun other hmem => hid other (List.mem_cons_of_mem row hmem),
          htouches.items, if_neg (hid row List.mem_cons_self).symm]
      · intro old hold
        exact hgrows old (by simp [hpending, hold])

/-- The lease of a row is released, and its item reset. -/
structure GivenUpRow (s : Session) (now : Int) (row : PreparedRow) : Prop where
  lease : s.leases[row.prepared.leaseId]? =
    some (releasedLease row.prepared.lease now (some "stale_request_context"))
  item : s.items[row.prepared.itemId]? =
    some (resetIrrecoverableItem row.prepared.leaseId row.prepared.item)

/-- The rows have different leases and different items. -/
def Apart (rows : List PreparedRow) : Prop :=
  rows.Pairwise fun row other => row.prepared.leaseId ≠ other.prepared.leaseId ∧
    row.prepared.itemId ≠ other.prepared.itemId

theorem ReadyRows.apart {s : Session} {now : Int} {rows : List PreparedRow}
    (h : ReadyRows s now rows) : Apart rows :=
  List.Pairwise.imp_of_mem
    (fun hrow hother hne => ⟨(h.ready _ hrow).lease_ne (h.ready _ hother) hne, hne⟩) h.distinct

theorem Apart.of_mem {rows : List PreparedRow} (h : Apart rows) {row other : PreparedRow}
    (hrow : row ∈ rows) (hother : other ∈ rows) (hne : row ≠ other) :
    row.prepared.leaseId ≠ other.prepared.leaseId ∧
      row.prepared.itemId ≠ other.prepared.itemId := by
  have hsymm : Std.Symm fun row other : PreparedRow =>
      row.prepared.leaseId ≠ other.prepared.leaseId ∧
        row.prepared.itemId ≠ other.prepared.itemId :=
    ⟨fun _ _ hapart => ⟨hapart.1.symm, hapart.2.symm⟩⟩
  exact List.Pairwise.forall h hrow hother hne

theorem normalizedThreadState_of_state {row : Dict} {state : String}
    (h : row.get "state" = .str state) (hstate : lower (strip state) ≠ "") :
    normalizedThreadState row = lower (strip state) := by
  have hne : state ≠ "" := by
    rintro rfl
    exact hstate (by decide)
  have htext : row.textOr "state" "" = state := by
    simp [Dict.textOr, Value.orElse, h, hne]
  unfold normalizedThreadState
  simp only [htext]
  rw [if_pos hstate]

/-- An item that has been returned is returned to the same state. -/
theorem returnedClaimableState_returned (item : Dict) :
    returnedClaimableState (clearClaimFields (returnItemToClaimableState item)) =
      returnedClaimableState item := by
  have hstate := get_state_cleared_returned item
  have hstatus : (clearClaimFields (returnItemToClaimableState item)).get "status" =
      .str (returnedClaimableState item).2 := by
    simp [clearClaimFields, returnItemToClaimableState]
  have hfields : ∀ key : String, key ∉ "state" :: "status" :: claimFields →
      (clearClaimFields (returnItemToClaimableState item)).get key = item.get key := by
    intro key hkey
    unfold Dict.get
    rw [getElem?_cleared_returned item hkey]
  have houtdated := hfields "is_outdated" (by decide)
  have houtdatedAlias := hfields "isOutdated" (by decide)
  generalize clearClaimFields (returnItemToClaimableState item) = row at *
  unfold returnedClaimableState at hstate hstatus ⊢
  cases hstale : isStaleOrOutdatedGithubThread item with
  | true =>
      rw [hstale] at hstate
      have hnormal : normalizedThreadState row = "stale" := by
        rw [normalizedThreadState_of_state hstate (by decide)]
        decide
      simp [isStaleOrOutdatedGithubThread, hnormal]
  | false =>
      rw [hstale] at hstate hstatus
      have hnormal : normalizedThreadState row = "open" := by
        rw [normalizedThreadState_of_state hstate (by decide)]
        decide
      have hupper : upper (strip (row.textOr "status" "")) = "OPEN" := by
        have htext : row.textOr "status" "" = "OPEN" := by
          simp [Dict.textOr, Value.orElse, hstatus]
        rw [htext]
        decide
      have hnot : ((item.get "is_outdated").orElse (item.get "isOutdated")).truthy = false := by
        unfold isStaleOrOutdatedGithubThread at hstale
        simp only [Bool.or_eq_false_iff] at hstale
        exact hstale.2
      have hrow : isStaleOrOutdatedGithubThread row = false := by
        unfold isStaleOrOutdatedGithubThread
        rw [houtdated, houtdatedAlias, hnot, hnormal, hupper]
        decide
      rw [hrow]

/-- A second reset changes nothing. -/
theorem resetIrrecoverableItem_idem (leaseId : String) (item : Dict) :
    resetIrrecoverableItem leaseId (resetIrrecoverableItem leaseId item) =
      resetIrrecoverableItem leaseId item := by
  by_cases hheld : item.textOr "active_lease_id" "" ≠ "" ∧
      item.textOr "active_lease_id" "" ≠ leaseId
  · have hkept : resetIrrecoverableItem leaseId item = item := by
      unfold resetIrrecoverableItem
      rw [if_pos hheld]
    rw [hkept, hkept]
  · have hreset : resetIrrecoverableItem leaseId item =
        clearClaimFields (returnItemToClaimableState item) := by
      unfold resetIrrecoverableItem
      rw [if_neg hheld]
    have hstate := returnedClaimableState_returned item
    have hunheld : (clearClaimFields (returnItemToClaimableState item)).textOr
        "active_lease_id" "" = "" := by
      simp [Dict.textOr, Value.orElse, clearClaimFields]
    rw [hreset]
    generalize hrow : clearClaimFields (returnItemToClaimableState item) = row at *
    unfold resetIrrecoverableItem
    simp only [hunheld]
    rw [if_neg (by simp)]
    refine Dict.ext fun key => ?_
    rw [← hrow] at hstate ⊢
    simp only [clearClaimFields, returnItemToClaimableState, Dict.getElem?_set,
      Dict.getElem?_pop] at hstate ⊢
    rw [hstate]
    split_ifs <;> rfl

/-- A row that is ready, or was given up before. -/
def Releasable (s : Session) (now : Int) (row : PreparedRow) : Prop :=
  ReadyRow s now row ∨ GivenUpRow s now row

theorem Releasable.congr {s s' : Session} {now : Int} {row : PreparedRow}
    (h : Releasable s now row)
    (hlease : s'.leases[row.prepared.leaseId]? = s.leases[row.prepared.leaseId]?)
    (hitem : s'.items[row.prepared.itemId]? = s.items[row.prepared.itemId]?) :
    Releasable s' now row := by
  rcases h with h | h
  · exact Or.inl (h.congr hlease hitem)
  · exact Or.inr ⟨hlease.trans h.lease, hitem.trans h.item⟩

/-- Releasing a row gives it up, whether or not that was done before. -/
theorem Releasable.release {s : Session} {now : Int} {row : PreparedRow}
    (h : Releasable s now row) :
    GivenUpRow (releaseIrrecoverableRequestLease s row.prepared now) now row ∧
      OthersKept s (releaseIrrecoverableRequestLease s row.prepared now) [row] ∧
      (releaseIrrecoverableRequestLease s row.prepared now).pendingEvidence =
        s.pendingEvidence := by
  unfold releaseIrrecoverableRequestLease
  rcases h with h | h
  · have hactive : row.prepared.lease.isActive = true := by
      unfold Lease.isActive
      rw [h.terms.1]
      rfl
    have hreleased := releaseLease_touches h.lease hactive now (some "stale_request_context")
      row.prepared.itemId
    have htouches := hreleased.trans (modifyItem_touches _ row.prepared.leaseId
      row.prepared.itemId (resetIrrecoverableItem row.prepared.leaseId))
    simp only [h.lease, Option.any_some, hactive, if_true]
    refine ⟨⟨?_, ?_⟩, ⟨?_, ?_⟩, ?_⟩
    · rw [htouches.leases, if_pos rfl, h.lease]
      rfl
    · rw [htouches.items, if_pos rfl, h.item]
      rfl
    · intro id hid
      rw [htouches.leases, if_neg (hid row List.mem_cons_self).symm]
    · intro id hid
      rw [htouches.items, if_neg (hid row List.mem_cons_self).symm]
    · rw [modifyItem_pendingEvidence]
      simp [releaseLease, h.lease, hactive, appendLeaseEvent]
  · have hinactive : (releasedLease row.prepared.lease now
        (some "stale_request_context")).isActive = false := rfl
    have htouches := modifyItem_touches s row.prepared.leaseId row.prepared.itemId
      (resetIrrecoverableItem row.prepared.leaseId)
    simp only [h.lease, Option.any_some, hinactive, Bool.false_eq_true, if_false]
    refine ⟨⟨?_, ?_⟩, ⟨?_, ?_⟩, by simp⟩
    · rw [htouches.leases, if_pos rfl, h.lease]
      rfl
    · rw [htouches.items, if_pos rfl, h.item, Option.map_some, resetIrrecoverableItem_idem]
    · intro id hid
      rw [htouches.leases, if_neg (hid row List.mem_cons_self).symm]
    · intro id hid
      rw [htouches.items, if_neg (hid row List.mem_cons_self).symm]

/-- Releasing rows gives up each of them, and nothing else. -/
theorem releaseRows_spec {s : Session} {now : Int} {rows : List PreparedRow}
    (hrows : ∀ row ∈ rows, Releasable s now row) (hapart : Apart rows) {s' : Session}
    (h : rows.foldl
      (fun session row => releaseIrrecoverableRequestLease session row.prepared now) s = s') :
    (∀ row ∈ rows, GivenUpRow s' now row) ∧ OthersKept s s' rows ∧
      s'.pendingEvidence = s.pendingEvidence := by
  induction rows generalizing s with
  | nil =>
      obtain rfl : s = s' := h
      exact ⟨by simp, ⟨fun _ _ => rfl, fun _ _ => rfl⟩, rfl⟩
  | cons row rows ih =>
      obtain ⟨hne, hrest⟩ := List.pairwise_cons.mp hapart
      obtain ⟨hrow, hkeptRow, hpendingRow⟩ := (hrows row List.mem_cons_self).release
      have hothers : ∀ other ∈ rows,
          Releasable (releaseIrrecoverableRequestLease s row.prepared now) now other := by
        intro other hmem
        obtain ⟨hleaseNe, hitemNe⟩ := hne other hmem
        exact (hrows other (List.mem_cons_of_mem row hmem)).congr
          (hkeptRow.leases _ (by simpa using hleaseNe)) (hkeptRow.items _ (by simpa using hitemNe))
      obtain ⟨hgiven, hkept, hpending⟩ := ih hothers hrest h
      refine ⟨?_, ⟨?_, ?_⟩, hpending.trans hpendingRow⟩
      · intro other hmem
        rcases List.mem_cons.mp hmem with rfl | hmem
        · exact ⟨by rw [hkept.leases _ fun last hlast => (hne last hlast).1.symm, hrow.lease],
            by rw [hkept.items _ fun last hlast => (hne last hlast).2.symm, hrow.item]⟩
        · exact hgiven other hmem
      · intro id hid
        rw [hkept.leases id fun other hmem => hid other (List.mem_cons_of_mem row hmem),
          hkeptRow.leases id (by simpa using hid row List.mem_cons_self)]
      · intro id hid
        rw [hkept.items id fun other hmem => hid other (List.mem_cons_of_mem row hmem),
          hkeptRow.items id (by simpa using hid row List.mem_cons_self)]

/-- The rows that pass the preflight. -/
def checkedRows (submission : BatchSubmission) (s : Session) : List PreparedRow :=
  match readBatch submission with
  | .ok responses => (preflightRows submission s [] responses).rows
  | .error _ => []

/-- The same with their bindings. -/
def boundRows (submission : BatchSubmission) (s : Session) : List PreparedRow :=
  match readBatch submission with
  | .ok responses =>
      let checked := preflightRows submission s [] responses
      (bindRows submission checked.session [] checked.rows).rows
  | .error _ => []

/-- Every row of the batch passes its checks. -/
structure PassesPreflight (submission : BatchSubmission) (s : Session) (responses : List Dict) :
    Prop where
  read : readBatch submission = .ok responses
  checked : (preflightRows submission s [] responses).stop = none
  bound : (bindRows submission (preflightRows submission s [] responses).session []
    (preflightRows submission s [] responses).rows).stop = none

/-- The session after the rows: each is accepted, and nothing else has changed. -/
structure AcceptsAll (s s' : Session) (now : Int) (rows : List PreparedRow) : Prop where
  ready : ∀ row ∈ rows, ReadyRow s now row
  threads : ∀ row ∈ rows, row.prepared.item.get "item_kind" = .str "github_thread"
  accepted : ∀ row ∈ rows, AcceptedRow s' now row
  kept : OthersKept s s' rows

theorem readyRows_nil (s : Session) (now : Int) : ReadyRows s now [] :=
  ⟨by simp, by simp, List.Pairwise.nil⟩

/-- What passes the preflight is accepted. -/
theorem PassesPreflight.accepts {submission : BatchSubmission} {s : Session}
    {responses : List Dict} (hkeyed : LeasesKeyed s) (h : PassesPreflight submission s responses) :
    (boundRows submission s).length = responses.length ∧
      ∃ s' acceptances, submitBatch s submission = (s', .ok acceptances) ∧
        acceptances.length = responses.length ∧
        AcceptsAll s s' submission.now (boundRows submission s) := by
  obtain ⟨hnotes, hchecked, hlength⟩ :=
    preflightRows_spec submission hkeyed responses (readyRows_nil s submission.now)
  have hlength := hlength h.checked
  obtain ⟨hbindNotes, carried, hcarried, hprepared, hcarries⟩ := bindRows_ok h.bound
  rw [List.nil_append] at hcarried
  obtain ⟨hready, hdistinct⟩ := hchecked.carried (hnotes.trans hbindNotes) hprepared hcarries
  have hbefore := (hchecked.carried (NotesOnly.refl s) hprepared hcarries).1
  obtain ⟨s', acceptances, haccept, hcount, haccepted, hkept, -⟩ :=
    acceptRows_ok hready hdistinct
  have hbound : boundRows submission s = carried := by
    simp only [boundRows, h.read, hcarried]
  have hcarriedLength : carried.length = responses.length := by
    have hmaps := congrArg List.length hprepared
    simp only [List.length_map, hlength, List.length_nil, Nat.zero_add] at hmaps
    exact hmaps
  have hnoted := hnotes.trans hbindNotes
  refine ⟨by rw [hbound, hcarriedLength], s', acceptances, ?_, by omega, ?_⟩
  · simp only [submitBatch, h.read, h.checked, h.bound, hcarried, haccept]
  · rw [hbound]
    refine ⟨hbefore, fun row' hmem => ?_, haccepted, ⟨fun id hid => ?_, fun id hid => ?_⟩⟩
    · obtain ⟨row, hrow, hsame, -⟩ := hcarries row' hmem
      rw [hsame]
      exact hchecked.threads row hrow
    · rw [hkept.leases id hid, hnoted.leases]
    · rw [hkept.items id hid, hnoted.items]

/-- What is left of the rows of a rejected batch. -/
structure RejectsAll (s s' : Session) (now : Int) (rows : List PreparedRow)
    (rejection : Rejection) : Prop where
  evidence : OnlyRejections s s'
  kept : isIrrecoverableReason rejection.reasonCode = false →
    s'.leases = s.leases ∧ s'.items = s.items
  ready : ∀ row ∈ rows, ReadyRow s now row
  givenUp : isIrrecoverableReason rejection.reasonCode = true →
    (∀ row ∈ rows, GivenUpRow s' now row) ∧ OthersKept s s' rows

/-- A batch that is rejected before anything is accepted is noted, and its rows given up where
their requests can no longer be answered. -/
theorem rejectBatch_rejects {s stopped : Session} {now : Int} {rows : List PreparedRow}
    {rejection : Rejection} (hrows : ReadyRows s now rows)
    (hstopped : ∃ noted, NotesOnly s noted ∧ (stopped = noted ∨ ∃ row ∈ rows,
      isIrrecoverableReason rejection.reasonCode = true ∧
        stopped = releaseIrrecoverableRequestLease noted row.prepared now)) :
    RejectsAll s (rejectBatch stopped rows now (.rejected rejection)) now rows rejection := by
  obtain ⟨noted, hnotes, hstopped⟩ := hstopped
  have hreleasable : ∀ row ∈ rows, Releasable noted now row :=
    fun row hmem => Or.inl ((hrows.ready row hmem).notes hnotes)
  by_cases hirrecoverable : isIrrecoverableReason rejection.reasonCode = true
  · simp only [rejectBatch, hirrecoverable, if_true]
    have hstart : (∀ row ∈ rows, Releasable stopped now row) ∧ OthersKept noted stopped rows ∧
        stopped.pendingEvidence = noted.pendingEvidence := by
      rcases hstopped with rfl | ⟨row, hmem, -, rfl⟩
      · exact ⟨hreleasable, ⟨fun _ _ => rfl, fun _ _ => rfl⟩, rfl⟩
      · obtain ⟨hrow, hkept, hpending⟩ := (hreleasable row hmem).release
        refine ⟨fun other hother => ?_, ⟨fun id hid => ?_, fun id hid => ?_⟩, hpending⟩
        · by_cases hsame : other = row
          · subst hsame
            exact Or.inr hrow
          · obtain ⟨hleaseNe, hitemNe⟩ := hrows.apart.of_mem hother hmem hsame
            exact (hreleasable other hother).congr (hkept.leases _ (by simpa using hleaseNe.symm))
              (hkept.items _ (by simpa using hitemNe.symm))
        · exact hkept.leases id (by simpa using hid row hmem)
        · exact hkept.items id (by simpa using hid row hmem)
    obtain ⟨hgiven, hkept, hpending⟩ := releaseRows_spec hstart.1 hrows.apart rfl
    constructor
    · intro record hrecord
      rw [hpending, hstart.2.2] at hrecord
      exact hnotes.evidence record hrecord
    · intro h
      rw [hirrecoverable] at h
      cases h
    · exact hrows.ready
    · refine fun _ => ⟨hgiven, ⟨fun id hid => ?_, fun id hid => ?_⟩⟩
      · rw [hkept.leases id hid, hstart.2.1.leases id hid, hnotes.leases]
      · rw [hkept.items id hid, hstart.2.1.items id hid, hnotes.items]
  · have hstopped : stopped = noted := by
      rcases hstopped with h | ⟨-, -, h, -⟩
      · exact h
      · exact absurd h hirrecoverable
    subst hstopped
    simp only [rejectBatch, hirrecoverable, Bool.false_eq_true, if_false]
    exact ⟨hnotes.evidence, fun _ => ⟨hnotes.leases, hnotes.items⟩, hrows.ready,
      fun h => absurd h hirrecoverable⟩

/-- How the command ends on the loaded session. -/
theorem submitBatch_rejected {submission : BatchSubmission} {s s' : Session}
    {rejection : Rejection} (hkeyed : LeasesKeyed s)
    (h : submitBatch s submission = (s', .error (.rejected rejection))) :
    RejectsAll s s' submission.now (checkedRows submission s) rejection := by
  unfold submitBatch at h
  split at h
  · next reasonCode hread =>
    obtain ⟨rfl, hstop⟩ := Prod.mk.inj h
    have hrows : checkedRows submission s = [] := by
      simp only [checkedRows, hread]
    rw [hrows]
    exact ⟨fun _ hrecord => Or.inl hrecord, fun _ => ⟨rfl, rfl⟩, by simp,
      fun _ => ⟨by simp, fun _ _ => rfl, fun _ _ => rfl⟩⟩
  · next responses hread =>
    obtain ⟨hnotes, hchecked, -⟩ :=
      preflightRows_spec submission hkeyed responses (readyRows_nil s submission.now)
    have hrows : checkedRows submission s =
        (preflightRows submission s [] responses).rows := by
      simp only [checkedRows, hread]
    rw [hrows]
    simp only at h
    split at h
    · next stop hstop =>
      obtain ⟨rfl, hstop⟩ := Prod.mk.inj h
      obtain rfl := Except.error.inj hstop
      exact rejectBatch_rejects hchecked ⟨_, hnotes, Or.inl rfl⟩
    · next hpassed =>
      split at h
      · next stop hstop =>
        obtain ⟨rfl, hrejected⟩ := Prod.mk.inj h
        obtain rfl := Except.error.inj hrejected
        obtain ⟨noted, hbindNotes, hstopped⟩ := bindRows_stop hstop
        refine rejectBatch_rejects hchecked ⟨noted, hnotes.trans hbindNotes, ?_⟩
        rcases hstopped with hstopped | ⟨row, hmem, rejected, hsame, hirrecoverable, hstopped⟩
        · exact Or.inl hstopped
        · obtain rfl := SubmissionStop.rejected.inj hsame
          exact Or.inr ⟨row, hmem, hirrecoverable, hstopped⟩
      · next hbound =>
        obtain ⟨-, s', acceptances, haccepted, -⟩ :=
          PassesPreflight.accepts hkeyed ⟨hread, hpassed, hbound⟩
        simp only [submitBatch, hread, hpassed, hbound] at haccepted
        rw [haccepted] at h
        simp at h

/-- An accepted batch has passed its preflight. -/
theorem submitBatch_accepted {submission : BatchSubmission} {s s' : Session}
    {acceptances : List Acceptance}
    (h : submitBatch s submission = (s', .ok acceptances)) :
    ∃ responses, PassesPreflight submission s responses := by
  unfold submitBatch at h
  split at h
  · simp at h
  · next responses hread =>
    simp only at h
    split at h
    · simp at h
    · next hpassed =>
      split at h
      · simp at h
      · next hbound => exact ⟨responses, hread, hpassed, hbound⟩

/-- The leases of the rows have ended, and nothing but the rows has changed. -/
structure RowsEnded (s s' : Session) (rows : List PreparedRow) : Prop where
  ended : ∀ row ∈ rows, ∃ lease : Lease, s'.leases[row.prepared.leaseId]? = some lease ∧
    lease.isActive = false
  kept : OthersKept s s' rows

section Reloaded

variable {s s' : Session} {now : Int} {rows : List PreparedRow}

theorem AcceptsAll.rowsEnded (h : AcceptsAll s s' now rows) : RowsEnded s s' rows :=
  ⟨fun row hmem => ⟨_, (h.accepted row hmem).lease, rfl⟩, h.kept⟩

theorem RejectsAll.rowsEnded {rejection : Rejection} (h : RejectsAll s s' now rows rejection)
    (hirrecoverable : isIrrecoverableReason rejection.reasonCode = true) : RowsEnded s s' rows :=
  ⟨fun row hmem => ⟨_, ((h.givenUp hirrecoverable).1 row hmem).lease, rfl⟩,
    (h.givenUp hirrecoverable).2⟩

theorem ReadyRow.isActive {row : PreparedRow} (h : ReadyRow s now row) :
    row.prepared.lease.isActive = true := by
  unfold Lease.isActive
  rw [h.terms.1]
  rfl

/-- No lease holds the items of the rows any more, and the other items are held as before. -/
theorem activeLeaseOf_rowsEnded (hbefore : (activeItemIds s.leases).Nodup)
    (hafter : (activeItemIds s'.leases).Nodup) (hready : ∀ row ∈ rows, ReadyRow s now row)
    (h : RowsEnded s s' rows) :
    (∀ row ∈ rows, activeLeaseOf s'.leases row.prepared.itemId = none) ∧
      ∀ itemId : String, (∀ row ∈ rows, row.prepared.itemId ≠ itemId) →
        activeLeaseOf s'.leases itemId = activeLeaseOf s.leases itemId := by
  have hinactive : ∀ row ∈ rows, ∀ lease : Lease,
      s'.leases[row.prepared.leaseId]? = some lease → lease.isActive = false := by
    intro row hmem lease hlease
    obtain ⟨ended, hended, hnot⟩ := h.ended row hmem
    rw [hended] at hlease
    obtain rfl := Option.some.inj hlease
    exact hnot
  constructor
  · intro row hmem
    rw [activeLeaseOf_eq_none hafter]
    intro id lease hlease hactive hheld
    by_cases hid : ∀ other ∈ rows, other.prepared.leaseId ≠ id
    · rw [h.kept.leases id hid] at hlease
      have hrow := hready row hmem
      exact hid row hmem (nodup_activeItemIds.mp hbefore _ id _ lease hrow.lease hlease
        hrow.isActive hactive (hrow.held.trans hheld.symm))
    · push Not at hid
      obtain ⟨other, hother, rfl⟩ := hid
      have hnot := hinactive other hother lease hlease
      rw [hactive] at hnot
      cases hnot
  · intro itemId hitem
    refine activeLeaseOf_congr hafter hbefore fun id lease hactive hheld => ?_
    by_cases hid : ∀ other ∈ rows, other.prepared.leaseId ≠ id
    · rw [h.kept.leases id hid]
    · push Not at hid
      obtain ⟨other, hother, rfl⟩ := hid
      constructor
      · intro hlease
        have hnot := hinactive other hother lease hlease
        rw [hactive] at hnot
        cases hnot
      · intro hlease
        have hrow := hready other hother
        rw [hrow.lease] at hlease
        obtain rfl := Option.some.inj hlease
        exact absurd (hrow.held.symm.trans hheld) (hitem other hother)

theorem othersKept_reloaded (hbefore : Projected s) (hafter : (activeItemIds s'.leases).Nodup)
    (hready : ∀ row ∈ rows, ReadyRow s now row) (h : RowsEnded s s' rows) :
    OthersKept s (reloaded s') rows := by
  obtain ⟨-, hothers⟩ := activeLeaseOf_rowsEnded hbefore.oneActive hafter hready h
  constructor
  · exact h.kept.leases
  · intro id hid
    rw [getElem?_reloaded_items, h.kept.items id hid, hothers id hid]
    cases hitem : s.items[id]? with
    | none => rfl
    | some item => rw [Option.map_some, hbefore.item hitem]

theorem row_reloaded (hbefore : Projected s) (hafter : (activeItemIds s'.leases).Nodup)
    (hready : ∀ row ∈ rows, ReadyRow s now row) (h : RowsEnded s s' rows) {row : PreparedRow}
    (hmem : row ∈ rows) {item : Dict} (hitem : s'.items[row.prepared.itemId]? = some item) :
    (reloaded s').items[row.prepared.itemId]? = some (projectClaim item none) := by
  obtain ⟨hrows, -⟩ := activeLeaseOf_rowsEnded hbefore.oneActive hafter hready h
  rw [getElem?_reloaded_items, hitem, hrows row hmem]
  rfl

end Reloaded

theorem persist_evidence {store committed : Store} {changed : Session}
    (h : persistLoadedScope store changed none = .ok committed) :
    (∀ record ∈ changed.pendingEvidence, ∃ row ∈ committed.evidence, row.record = record) ∧
      ∀ row ∈ committed.evidence,
        row ∈ store.evidence ∨ row.record ∈ changed.pendingEvidence := by
  obtain ⟨revision, hreplace⟩ := StoreResult.map_fst_ok h
  obtain ⟨-, hcommit, -⟩ := replace_ok hreplace
  exact commitSession_evidence hcommit

/-- Lease, item and evidence of a row, as a load finds them once its response is accepted. -/
structure CommittedRow (committed : Store) (after : Session) (now : Int) (row : PreparedRow) :
    Prop where
  lease : after.leases[row.prepared.leaseId]? = some (acceptedLease row.prepared.lease now)
  item : ∃ item : Dict, after.items[row.prepared.itemId]? = some item ∧
    SameWork (applyResponseToItem row.prepared.item row.response now) item
  record : ∃ evidence ∈ committed.evidence, RecordsAcceptance evidence.record row

/-- Lease and item of a row, as a load finds them once its request is given up. -/
structure ReturnedRow (after : Session) (now : Int) (row : PreparedRow) : Prop where
  lease : after.leases[row.prepared.leaseId]? =
    some (releasedLease row.prepared.lease now (some "stale_request_context"))
  item : ∃ item : Dict, after.items[row.prepared.itemId]? = some item ∧
    ReturnedWork row.prepared.item item

/-- What the command leaves of the loaded session in the store. -/
def BatchSettled (store : Store) (s : Session) (submission : BatchSubmission) :
    Store × BatchOutcome → Prop
  | (committed, .accepted acceptances) =>
      ∃ after, loadSnapshot committed = .ok after ∧
        acceptances.length = (boundRows submission s).length ∧
        (∀ row ∈ boundRows submission s, CommittedRow committed after submission.now row) ∧
        OthersKept s after (boundRows submission s)
  | (committed, .rejected rejection) =>
      ∃ after, loadSnapshot committed = .ok after ∧
        (∀ row ∈ committed.evidence,
          row ∈ store.evidence ∨ row.record.eventType = "response_rejected") ∧
        if isIrrecoverableReason rejection.reasonCode then
          (∀ row ∈ checkedRows submission s, ReturnedRow after submission.now row) ∧
            OthersKept s after (checkedRows submission s)
        else after.leases = s.leases ∧ after.items = s.items
  | (committed, .failed _) => committed = store
  | (committed, .escaped) => committed = store

theorem sameWork_projectClaim_none {item : Dict} (h : item.get "state" ≠ .str "claimed") :
    SameWork item (projectClaim item none) := by
  rw [projectClaim_none_unclaimed h]
  intro key hkey
  simp only [claimFields, List.mem_cons, List.not_mem_nil, or_false, not_or] at hkey
  obtain ⟨hby, hat, hexpires, hlink⟩ := hkey
  simp [clearedClaim, Dict.getElem?_set, Dict.getElem?_pop, Ne.symm hby, Ne.symm hat,
    Ne.symm hexpires, Ne.symm hlink]

/-- The item of an accepted row is shown with its evidence. -/
theorem sameWork_accepted {row : PreparedRow} (now : Int)
    (h : row.prepared.item.get "item_kind" = .str "github_thread") :
    SameWork (applyResponseToItem row.prepared.item row.response now)
      (projectClaim (applyResponseToItem row.prepared.item row.response now) none) := by
  apply sameWork_projectClaim_none
  unfold applyResponseToItem
  rw [if_pos h]
  simp [applyResponseToThread]

/-- The item of a row that is given up is shown returned. -/
theorem returnedWork_givenUp {s : Session} {now : Int} {row : PreparedRow}
    (hbefore : Projected s) (hkeyed : LeasesKeyed s) (h : ReadyRow s now row) :
    ReturnedWork row.prepared.item
      (projectClaim (resetIrrecoverableItem row.prepared.leaseId row.prepared.item) none) := by
  have hclaim : activeLeaseOf s.leases row.prepared.itemId = some row.prepared.lease :=
    (activeLeaseOf_eq_some hbefore.oneActive).mpr ⟨_, h.lease, h.isActive, h.held⟩
  have hshown : row.prepared.item.get "active_lease_id" = .str row.prepared.leaseId := by
    rw [← hbefore.item h.item, hclaim]
    simp [projectClaim, (hkeyed _ _ h.lease).1]
  exact clearedClaim_returned (resetIrrecoverable_returns row.prepared.leaseId) hshown

/-- A batch that passes its preflight is accepted whole. A batch that is rejected accepts
nothing, and changes only the rows it gives up because their requests can no longer be
answered. -/
theorem batch_accepted_whole {store : Store} {s : Session} (hload : loadSnapshot store = .ok s)
    (hkeyed : LeasesKeyed s) (submission : BatchSubmission) :
    (∀ responses, PassesPreflight submission s responses →
      (boundRows submission s).length = responses.length ∧
        ∃ s' acceptances, submitBatch s submission = (s', .ok acceptances) ∧
          acceptances.length = responses.length) ∧
      BatchSettled store s submission (submitBatchActionResponse store submission) := by
  have hbefore := Projected.ofLoad hload
  have hpending : s.pendingEvidence = [] := by
    rw [(loadSnapshot_ok.mp hload).2]
  constructor
  · intro responses hpasses
    obtain ⟨hlength, s', acceptances, hsubmit, hcount, -⟩ := hpasses.accepts hkeyed
    exact ⟨hlength, s', acceptances, hsubmit, hcount⟩
  · unfold submitBatchActionResponse
    rw [hload]
    simp only
    split
    · rfl
    · next s' rejection hsubmit =>
      split
      · next committed hpersist =>
        obtain ⟨hreload, hnodup⟩ := persist_whole hpersist
        have hrejects := submitBatch_rejected hkeyed hsubmit
        refine ⟨reloaded s', hreload, ?_, ?_⟩
        · intro row hrow
          rcases (persist_evidence hpersist).2 row hrow with hold | hnew
          · exact Or.inl hold
          · rcases hrejects.evidence row.record hnew with hbeforeRecord | hrejected
            · simp [hpending] at hbeforeRecord
            · exact Or.inr hrejected
        · split
          · next hirrecoverable =>
            have hended := hrejects.rowsEnded hirrecoverable
            obtain ⟨hgiven, -⟩ := hrejects.givenUp hirrecoverable
            refine ⟨fun row hmem => ⟨(hgiven row hmem).lease, ?_⟩,
              othersKept_reloaded hbefore hnodup hrejects.ready hended⟩
            exact ⟨_, row_reloaded hbefore hnodup hrejects.ready hended hmem
              (hgiven row hmem).item, returnedWork_givenUp hbefore hkeyed
              (hrejects.ready row hmem)⟩
          · next hrecoverable =>
            obtain ⟨hleases, hitems⟩ := hrejects.kept (by simpa using hrecoverable)
            refine ⟨hleases, ?_⟩
            unfold reloaded
            rw [hleases, hitems]
            exact hbefore.items
      · rfl
    · next s' acceptances hsubmit =>
      split
      · next committed hpersist =>
        obtain ⟨hreload, hnodup⟩ := persist_whole hpersist
        obtain ⟨responses, hpasses⟩ := submitBatch_accepted hsubmit
        obtain ⟨hlength, written, accepted, hsame, hcount, haccepts⟩ := hpasses.accepts hkeyed
        rw [hsubmit] at hsame
        obtain ⟨rfl, hacceptances⟩ := Prod.mk.inj hsame
        obtain rfl := Except.ok.inj hacceptances
        refine ⟨reloaded s', hreload, hcount.trans hlength.symm, fun row hmem => ?_,
          othersKept_reloaded hbefore hnodup haccepts.ready haccepts.rowsEnded⟩
        have haccepted := haccepts.accepted row hmem
        obtain ⟨record, hrecord, hrecords⟩ := haccepted.record
        obtain ⟨evidence, hevidence, hfound⟩ := (persist_evidence hpersist).1 record hrecord
        exact ⟨haccepted.lease, ⟨_, row_reloaded hbefore hnodup haccepts.ready
            haccepts.rowsEnded hmem haccepted.item,
          sameWork_accepted submission.now (haccepts.threads row hmem)⟩,
          evidence, hevidence, by rw [hfound]; exact hrecords⟩
      · rfl

/-- A thread to fix. -/
def reviewedThreadRow (itemId : String) : Dict :=
  Dict.ofFields [("item_id", .str itemId), ("item_kind", .str "github_thread"),
    ("state", .str "open"), ("status", .str "OPEN"), ("classification_evidence",
      (Dict.ofFields [("classification", .str "fix")]).toValue)]

/-- The lease of its fixer. -/
def fixerRow (itemId leaseId requestId : String) : Lease where
  leaseId := leaseId
  itemId := itemId
  agentId := "agent"
  role := .fixer
  status := .active
  createdAt := 0
  expiresAt := 10
  resumeToken := none
  requestHash := "hash"
  requestId := some requestId
  requestPath := none
  conflictKeys := ["item:" ++ itemId]

/-- Two threads that an agent has been given to fix, in a session that has seen its pull request in
a stack or not. -/
def leasedThreadSession (stacked : Bool) : Session where
  root := Dict.ofFields
    [("session_id", .str "session"),
      ("metadata", (Dict.ofFields [("pull_request_context", (Dict.ofFields
        [("stack_membership_observed", .bool stacked)]).toValue)]).toValue)]
  items := Std.ExtTreeMap.ofList
    [("thread", reviewedThreadRow "thread"), ("other", reviewedThreadRow "other")] compare
  leases := Std.ExtTreeMap.ofList [("lease", fixerRow "thread" "lease" "request"),
    ("lease2", fixerRow "other" "lease2" "request2")] compare
  leaseEvents := []

/-- The answer to one of the requests. -/
def fixResponse (leaseId requestId : String) : Value :=
  (Dict.ofFields [("request_id", .str requestId), ("lease_id", .str leaseId),
    ("note", .str "done"), ("summary", .str "s"), ("why", .str "w"), ("files", .list [.str "a.py"]),
    ("validation_commands", .list [(Dict.ofFields
      [("command", .str "pytest"), ("result", .str "passed")]).toValue]),
    ("fix_reply", (Dict.ofFields [("commit_hash", .str "abcd123")]).toValue)]).toValue

/-- The agent's fixes of the threads, as one batch. -/
def threadBatch : BatchSubmission where
  batch := some (.json (Dict.ofFields [("agent_id", .str "agent"),
    ("items", .list [fixResponse "lease" "request", fixResponse "lease2" "request2"])]).toValue)
  now := 1
  files := ∅
  prNumber := "102"
  observed := none
  prCommitShas := some ["abcd1234"]

def threadStore (stacked : Bool) : StoreResult Store :=
  commitSession blankStore (leasedThreadSession stacked) [] [] 1

theorem threadBatch_accepted : ∃ store s committed acceptances,
    loadSnapshot store = .ok s ∧ LeasesKeyed s ∧ acceptances.length = 2 ∧
      submitBatchActionResponse store threadBatch = (committed, .accepted acceptances) := by
  have hrun : ((threadStore false).toOption.any fun store =>
      (loadSnapshot store).toOption.any fun s =>
        match submitBatchActionResponse store threadBatch with
        | (_, .accepted acceptances) => decide (LeasesKeyed s ∧ acceptances.length = 2)
        | _ => false) = true := by
    decide +kernel
  obtain ⟨store, -, hrun⟩ := StoreResult.exists_ok hrun
  obtain ⟨s, hload, hrun⟩ := StoreResult.exists_ok hrun
  split at hrun
  · next committed acceptances hsubmit =>
    obtain ⟨hkeyed, hlength⟩ := of_decide_eq_true hrun
    exact ⟨store, s, committed, acceptances, hload, hkeyed, hlength, hsubmit⟩
  · cases hrun

theorem batch_accepted_whole_threadBatch : ∃ store s committed acceptances,
    submitBatchActionResponse store threadBatch = (committed, .accepted acceptances) ∧
      acceptances.length = 2 ∧
      BatchSettled store s threadBatch (committed, .accepted acceptances) := by
  obtain ⟨store, s, committed, acceptances, hload, hkeyed, hlength, hsubmit⟩ :=
    threadBatch_accepted
  have hsettled := (batch_accepted_whole hload hkeyed threadBatch).2
  rw [hsubmit] at hsettled
  exact ⟨store, s, committed, acceptances, hsubmit, hlength, hsettled⟩

/-- Once the pull request was seen in a stack, the batch is rejected and its leases released. -/
theorem threadBatch_rejection_releases :
    ¬ ∀ (store committed : Store) (s : Session) (submission : BatchSubmission)
      (rejection : Rejection), loadSnapshot store = .ok s → LeasesKeyed s →
      submitBatchActionResponse store submission = (committed, .rejected rejection) →
      ∃ after, loadSnapshot committed = .ok after ∧
        ∀ response ∈ (readBatch submission).toOption.getD [], ∀ leaseId : String,
          response.get "lease_id" = .str leaseId →
          after.leases[leaseId]? = s.leases[leaseId]? := by
  intro hclaim
  have hrun : ((threadStore true).toOption.any fun store =>
      (loadSnapshot store).toOption.any fun s =>
        match submitBatchActionResponse store threadBatch with
        | (committed, .rejected _) =>
            (loadSnapshot committed).toOption.any fun after =>
              decide (LeasesKeyed s ∧ ∃ response ∈ (readBatch threadBatch).toOption.getD [],
                response.get "lease_id" = .str "lease" ∧
                  after.leases["lease"]? ≠ s.leases["lease"]?)
        | _ => false) = true := by
    decide +kernel
  obtain ⟨store, -, hrun⟩ := StoreResult.exists_ok hrun
  obtain ⟨s, hload, hrun⟩ := StoreResult.exists_ok hrun
  split at hrun
  · next committed rejection hsubmit =>
    obtain ⟨after, hafter, hrun⟩ := StoreResult.exists_ok hrun
    obtain ⟨hkeyed, response, hresponse, hnamed, hchanged⟩ := of_decide_eq_true hrun
    obtain ⟨found, hfound, hkept⟩ := hclaim store committed s threadBatch rejection hload hkeyed
      hsubmit
    obtain rfl := Except.ok.inj (hafter.symm.trans hfound)
    exact hchanged (hkept response hresponse "lease" hnamed)
  · cases hrun

end GhAddressCr
