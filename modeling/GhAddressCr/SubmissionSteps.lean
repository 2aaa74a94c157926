import GhAddressCr.ActionSubmission
import GhAddressCr.SessionChanges

/-!
# Steps of a submission

What each step of a submission can do to the session it works on: take notes, give up the
request of the response, or end a lease that has run out.
-/
namespace GhAddressCr

open PyText GithubThreadState RuntimeStore

/-- The lease a response is for: the one it names, or the agent's present one on the item. -/
def Answers (response : Dict) (leaseId : String) (lease : Lease) : Prop :=
  leaseId = response.textOr "lease_id" "" ∨
    lease.agentId = response.textOr "agent_id" "" ∧ lease.role = .fixer ∧
      lease.itemId = strip (response.textOr "item_id" "")

/-- The reason a prepared response is refused for by the binding of its request. -/
def bindingReason (session : Session) (submission : ResponseSubmission)
    (prepared : PreparedSubmission) : Option String :=
  (revisionBindingReason submission.prNumber (hasObservedStackMembership session)
    (requestRepositoryContext submission.files prepared.lease) submission.observed).1

/-- What is prepared for a response, where it passes. -/
def prepared? (session : Session) (submission : ResponseSubmission) :
    Option PreparedSubmission :=
  (prepareActionResponseSubmission session submission.files submission.response
    submission.now).2.toOption.map (·.2)

/-- The request that a response is for is given up: the response passes the checks on itself,
but the binding of the request is no longer the current one. -/
def givenUpRequest (session : Session) (submission : ResponseSubmission) :
    Option PreparedSubmission :=
  if submission.publish && (publishShortcutReason session submission.response).isSome then none
  else
    (prepared? session submission).filter fun prepared =>
      (bindingReason session submission prepared).any isIrrecoverableReason

/-- Each lease is held under its own id, as `claim_lease` stores it. -/
def LeasesKeyed (session : Session) : Prop :=
  ∀ (leaseId : String) (lease : Lease), session.leases[leaseId]? = some lease →
    lease.leaseId = leaseId ∧ leaseId ≠ ""

instance (session : Session) : Decidable (LeasesKeyed session) :=
  decidable_of_iff (∀ row ∈ session.leases.toList, row.2.leaseId = row.1 ∧ row.1 ≠ "") (by
    simp [LeasesKeyed, Std.ExtTreeMap.mem_toList_iff_getElem?_eq_some])

/-- The only evidence that was added says that a response was rejected. -/
def OnlyRejections (s s' : Session) : Prop :=
  ∀ record ∈ s'.pendingEvidence,
    record ∈ s.pendingEvidence ∨ record.eventType = "response_rejected"

/-- Nothing but the metadata and the record of a rejection is written. -/
structure NotesOnly (s s' : Session) : Prop where
  root : ∀ key : String, key ≠ "metadata" → s'.root[key]? = s.root[key]?
  leases : s'.leases = s.leases
  items : s'.items = s.items
  evidence : OnlyRejections s s'

theorem OnlyRejections.trans {s s' s'' : Session} (h : OnlyRejections s s')
    (h' : OnlyRejections s' s'') : OnlyRejections s s'' := by
  intro record hrecord
  rcases h' record hrecord with hrecord | hrejected
  · exact h record hrecord
  · exact Or.inr hrejected

theorem NotesOnly.refl (s : Session) : NotesOnly s s :=
  ⟨fun _ _ => rfl, rfl, rfl, fun _ hrecord => Or.inl hrecord⟩

theorem NotesOnly.trans {s s' s'' : Session} (h : NotesOnly s s') (h' : NotesOnly s' s'') :
    NotesOnly s s'' :=
  ⟨fun key hkey => (h'.root key hkey).trans (h.root key hkey), h'.leases.trans h.leases,
    h'.items.trans h.items, h.evidence.trans h'.evidence⟩

theorem setMetadata_notes (s : Session) (metadata : Dict) : NotesOnly s (s.setMetadata metadata) :=
  ⟨fun key hkey => by simp [Session.setMetadata, Dict.getElem?_set, Ne.symm hkey], rfl, rfl,
    fun _ hrecord => Or.inl hrecord⟩

theorem rejectResponse_notes {α : Type} (s : Session) (response : Dict) (now : Int)
    (rejection : Rejection) :
    NotesOnly s (rejectResponse (α := α) s response now rejection).1 := by
  refine ⟨fun _ _ => rfl, rfl, rfl, fun record hrecord => ?_⟩
  rcases List.mem_append.mp hrecord with hrecord | hrecord
  · exact Or.inl hrecord
  · obtain rfl := List.mem_singleton.mp hrecord
    exact Or.inr rfl

/-- Preparing a submission only notes its rejection, and changes nothing where it passes. -/
theorem prepare_notes (s : Session) (files : FileSystem) (response : Dict) (now : Int) :
    NotesOnly s (prepareActionResponseSubmission s files response now).1 ∧
      ∀ prepared, (prepareActionResponseSubmission s files response now).2 = .ok prepared →
        (prepareActionResponseSubmission s files response now).1 = s := by
  unfold prepareActionResponseSubmission
  simp only
  repeat' split
  all_goals first
    | exact ⟨.refl s, fun _ _ => rfl⟩
    | exact ⟨rejectResponse_notes s _ _ _, fun _ h => by cases h⟩

theorem prepare_same {session session' : Session} {files : FileSystem} {response : Dict}
    {now : Int} {prepared : Dict × PreparedSubmission}
    (h : prepareActionResponseSubmission session files response now = (session', .ok prepared)) :
    session' = session := by
  have hsame := (prepare_notes session files response now).2 prepared
  rw [h] at hsame
  exact hsame rfl

theorem verifyCitedCommit_notes (s : Session) (submission : ResponseSubmission)
    (response : Dict) (prepared : PreparedSubmission) :
    NotesOnly s (verifyCitedCommitInPr s submission response prepared).1 := by
  unfold verifyCitedCommitInPr
  simp only
  split
  · exact .refl s
  · split
    · exact .refl s
    · split
      · exact .refl s
      · exact rejectResponse_notes s _ _ _

theorem cacheObserved_notes (s : Session) (observed : Option StackContext) :
    NotesOnly s (cacheObserved s observed) := by
  unfold cacheObserved
  split
  · exact setMetadata_notes s _
  · exact .refl s

theorem verifyRevisionBinding_ok {s s' : Session} {submission : ResponseSubmission}
    {response : Dict} {prepared : PreparedSubmission} {binding : Option Dict}
    (h : verifyRequestRevisionBinding s submission response prepared = (s', .ok binding)) :
    bindingReason s submission prepared = none ∧ NotesOnly s s' := by
  unfold verifyRequestRevisionBinding at h
  simp only at h
  split at h
  · next hreason =>
    obtain ⟨rfl, -⟩ := Prod.mk.inj h
    exact ⟨hreason, cacheObserved_notes s _⟩
  · split at h <;> simp [rejectResponse] at h

theorem verifyRevisionBinding_error {s s' : Session} {submission : ResponseSubmission}
    {response : Dict} {prepared : PreparedSubmission} {stop : SubmissionStop}
    (h : verifyRequestRevisionBinding s submission response prepared = (s', .error stop)) :
    ∃ reasonCode noted, bindingReason s submission prepared = some reasonCode ∧
      stop = .rejected {
        reasonCode, itemId := prepared.itemId, leaseId := prepared.leaseId } ∧
      NotesOnly s noted ∧
      s' = if isIrrecoverableReason reasonCode then
        releaseIrrecoverableRequestLease noted prepared submission.now else noted := by
  unfold verifyRequestRevisionBinding at h
  simp only at h
  split at h
  · simp at h
  · next reasonCode hreason =>
    let rejection : Rejection :=
      { reasonCode, itemId := prepared.itemId, leaseId := prepared.leaseId }
    let observed := (revisionBindingReason submission.prNumber (hasObservedStackMembership s)
      (requestRepositoryContext submission.files prepared.lease) submission.observed).2
    have hnoted := (cacheObserved_notes s observed).trans
      (rejectResponse_notes (α := Option Dict) _ response submission.now rejection)
    split at h
    · next hirrecoverable =>
      obtain ⟨hsession, hstop⟩ := Prod.mk.inj h
      refine ⟨reasonCode, _, hreason, (Except.error.inj hstop).symm, hnoted, ?_⟩
      rw [if_pos hirrecoverable]
      exact hsession.symm
    · next hrecoverable =>
      obtain ⟨hsession, hstop⟩ := Prod.mk.inj h
      refine ⟨reasonCode, _, hreason, (Except.error.inj hstop).symm, hnoted, ?_⟩
      rw [if_neg hrecoverable]
      exact hsession.symm

/-- The checks before the transaction give the request up, or only take notes. -/
theorem preflight_rejected {s s' : Session} {submission : ResponseSubmission}
    {rejection : Rejection}
    (h : preflightSubmission s submission = (s', .error (.rejected rejection))) :
    givenUpRequest s submission = none ∧ NotesOnly s s' ∨
      ∃ prepared noted, givenUpRequest s submission = some prepared ∧ NotesOnly s noted ∧
        s' = releaseIrrecoverableRequestLease noted prepared submission.now := by
  have hprepare := prepare_notes s submission.files submission.response submission.now
  unfold preflightSubmission at h
  simp only at h
  unfold givenUpRequest prepared?
  split at h
  · next reasonCode hshortcut =>
    obtain ⟨rfl, -⟩ := Prod.mk.inj h
    left
    refine ⟨?_, .refl s⟩
    rw [if_pos]
    split at hshortcut
    · next hpublish => simp [hpublish, hshortcut]
    · cases hshortcut
  · next hshortcut =>
    rw [if_neg (by
      split at hshortcut
      · next hpublish => simp [hshortcut]
      · next hpublish => simp [hpublish])]
    split at h
    · next session stop hprepared =>
      rw [hprepared] at hprepare ⊢
      obtain ⟨rfl, -⟩ := Prod.mk.inj h
      exact Or.inl ⟨rfl, hprepare.1⟩
    · next session response prepared hprepared =>
      rw [hprepared] at hprepare ⊢
      obtain rfl : session = s := hprepare.2 _ rfl
      simp only
      split at h
      · next session' stop hverified =>
        obtain ⟨rfl, hstop⟩ := Prod.mk.inj h
        obtain ⟨reasonCode, noted, hreason, -, hnoted, hsession⟩ :=
          verifyRevisionBinding_error hverified
        by_cases hgiven : isIrrecoverableReason reasonCode = true
        · rw [if_pos hgiven] at hsession
          exact Or.inr ⟨prepared, noted, by simp [Except.toOption, hreason, hgiven], hnoted, hsession⟩
        · rw [if_neg hgiven] at hsession
          exact Or.inl ⟨by simp [Except.toOption, hreason, hgiven], hsession ▸ hnoted⟩
      · next session' binding hverified =>
        obtain ⟨hreason, hnoted⟩ := verifyRevisionBinding_ok hverified
        have hcommit := verifyCitedCommit_notes session' submission
          (response.setIfSome "_runtime_revision_binding" (binding.map (·.toValue))) prepared
        split at h
        · next session'' stop hcited =>
          obtain ⟨rfl, -⟩ := Prod.mk.inj h
          rw [hcited] at hcommit
          exact Or.inl ⟨by simp [Except.toOption, hreason], hnoted.trans hcommit⟩
        · simp at h

/-- Where the checks pass, the request is not given up. -/
theorem preflight_passed {s s' : Session} {submission : ResponseSubmission} {response : Dict}
    {prepared : PreparedSubmission}
    (h : preflightSubmission s submission = (s', .ok (response, prepared))) :
    givenUpRequest s submission = none := by
  have hprepare := prepare_notes s submission.files submission.response submission.now
  unfold preflightSubmission at h
  simp only at h
  unfold givenUpRequest prepared?
  split at h
  · simp at h
  · split
    · rfl
    · split at h
      · simp at h
      · next session expanded prepared' hprepared =>
        rw [hprepared] at hprepare ⊢
        obtain rfl : session = s := hprepare.2 _ rfl
        simp only
        split at h
        · simp at h
        · next session' binding hverified =>
          obtain ⟨hreason, -⟩ := verifyRevisionBinding_ok hverified
          simp [Except.toOption, hreason]

theorem expandEvidenceRef_congr {part whole : Session} (hroot : part.root = whole.root)
    (response : Dict) : expandEvidenceRef part response = expandEvidenceRef whole response := by
  unfold expandEvidenceRef
  rw [hroot]

theorem checkResponse_congr {part whole : Session} (hroot : part.root = whole.root)
    (response item : Dict) :
    checkResponse part response item = checkResponse whole response item := by
  unfold checkResponse
  rw [expandEvidenceRef_congr hroot]

theorem hasObservedStackMembership_congr {part whole : Session} (hroot : part.root = whole.root) :
    hasObservedStackMembership part = hasObservedStackMembership whole := by
  unfold hasObservedStackMembership Session.metadata?
  rw [hroot]

/-- The lease a response names, and its item, are the same in both. -/
structure SameTarget (part whole : Session) (response : Dict) : Prop where
  root : part.root = whole.root
  named : response.textOr "lease_id" "" ≠ "" →
    ∃ lease, part.leases[response.textOr "lease_id" ""]? = some lease ∧
      whole.leases[response.textOr "lease_id" ""]? = some lease ∧
      part.items[lease.itemId]? = whole.items[lease.itemId]?

theorem SameTarget.prepared? {part whole : Session} {submission : ResponseSubmission}
    (h : SameTarget part whole submission.response) :
    prepared? part submission = prepared? whole submission := by
  unfold GhAddressCr.prepared? prepareActionResponseSubmission
  by_cases hgiven : (submission.response.get "lease_id").truthy = true
  · have htext := Dict.textOr_of_truthy "" hgiven
    obtain ⟨lease, hpart, hwhole, hitem⟩ := h.named
      (by rw [htext]; exact Value.text_ne_empty hgiven)
    rw [htext] at hpart hwhole
    simp only [hgiven, hpart, hwhole, hitem, Bool.not_true, Bool.false_eq_true, if_false]
    split
    · rfl
    · cases whole.items[lease.itemId]? with
      | none => rfl
      | some item =>
          simp only [checkResponse_congr h.root]
          cases checkResponse whole submission.response item with
          | error reasonCode => rfl
          | ok response =>
              simp only
              split <;> simp_all [rejectResponse, Except.toOption]
  · simp only [hgiven, Bool.not_false, if_true]

theorem SameTarget.givenUpRequest {part whole : Session} {submission : ResponseSubmission}
    (h : SameTarget part whole submission.response) :
    givenUpRequest part submission = givenUpRequest whole submission := by
  have hreason : ∀ prepared, bindingReason part submission prepared =
      bindingReason whole submission prepared := by
    intro prepared
    unfold bindingReason
    rw [hasObservedStackMembership_congr h.root]
  unfold GhAddressCr.givenUpRequest
  simp only [h.prepared?, hreason]
  by_cases hid : submission.response.textOr "lease_id" "" = ""
  · have hnone : GhAddressCr.prepared? whole submission = none := by
      unfold GhAddressCr.prepared? prepareActionResponseSubmission
      simp [Dict.textOr_eq_empty.mp hid, Except.toOption]
    simp [hnone]
  · obtain ⟨lease, hpart, hwhole, hitem⟩ := h.named hid
    have hshortcut : publishShortcutReason part submission.response =
        publishShortcutReason whole submission.response := by
      unfold publishShortcutReason
      simp [hpart, hwhole, hitem]
    rw [hshortcut]

theorem activeFixerLeaseForItem_some {session : Session} {itemId agentId : String} {lease : Lease}
    (h : activeFixerLeaseForItem session itemId (some agentId) = some lease) :
    (∃ id : String, session.leases[id]? = some lease) ∧ lease.itemId = itemId ∧
      lease.status = .active ∧ lease.role = .fixer ∧ lease.agentId = agentId := by
  have hfound := List.find?_some h
  have hmem := List.mem_of_find?_eq_some h
  simp only [List.mem_map, Std.ExtTreeMap.mem_toList_iff_getElem?_eq_some, Prod.exists,
    exists_eq_right] at hmem
  simp only [Bool.and_eq_true, beq_iff_eq, Option.all_some] at hfound
  obtain ⟨⟨⟨hitem, hstatus⟩, hrole⟩, hagent⟩ := hfound
  exact ⟨hmem, hitem, hstatus, hrole, hagent⟩

theorem rebound_spec {session : Session} (hkeyed : LeasesKeyed session) {response : Dict}
    {itemId currentLeaseId : String} {rebound : ReboundLease}
    (h : recoverReboundGithubThreadLease session response itemId currentLeaseId = some rebound) :
    session.leases[rebound.leaseId]? = some rebound.lease ∧
      rebound.lease.itemId = rebound.itemId ∧
      session.items[rebound.itemId]? = some rebound.item ∧ rebound.itemId = strip itemId ∧
      rebound.lease.role = .fixer ∧ rebound.lease.agentId = response.textOr "agent_id" "" := by
  unfold recoverReboundGithubThreadLease at h
  simp only at h
  split at h
  · cases h
  · split at h
    · cases h
    · next item hitem =>
      split at h
      · cases h
      · split at h
        · cases h
        · split at h
          · cases h
          · next lease hlease =>
            split at h
            · cases h
            · obtain rfl := Option.some.inj h
              obtain ⟨⟨id, hid⟩, hheld, -, hrole, hagent⟩ := activeFixerLeaseForItem_some hlease
              have hkey := (hkeyed id lease hid).1
              exact ⟨by rw [hkey]; exact hid, hheld, hitem, rfl, hrole, hagent⟩

/-- What is prepared is a lease of the session that the response is for, with its item. -/
structure PreparedFrom (session : Session) (response : Dict) (prepared : PreparedSubmission) :
    Prop where
  lease : session.leases[prepared.leaseId]? = some prepared.lease
  held : prepared.lease.itemId = prepared.itemId
  item : session.items[prepared.itemId]? = some prepared.item
  answers : Answers response prepared.leaseId prepared.lease

/-- What passes is checked against the item of the lease it names, or of the lease that
replaced it. -/
theorem prepare_ok {session session' : Session} {files : FileSystem} {response expanded : Dict}
    {now : Int} {prepared : PreparedSubmission}
    (h : prepareActionResponseSubmission session files response now =
      (session', .ok (expanded, prepared))) :
    checkResponse session response prepared.item = .ok expanded ∧
      ((∃ rebound currentLeaseId,
          recoverReboundGithubThreadLease session response (response.textOr "item_id" "")
            currentLeaseId = some rebound ∧
          prepared.leaseId = rebound.leaseId ∧ prepared.lease = rebound.lease ∧
          prepared.itemId = rebound.itemId ∧ prepared.item = rebound.item) ∨
        prepared.leaseId = response.textOr "lease_id" "" ∧
          session.leases[prepared.leaseId]? = some prepared.lease ∧
          prepared.lease.itemId = prepared.itemId ∧
          session.items[prepared.itemId]? = some prepared.item) := by
  unfold prepareActionResponseSubmission at h
  simp only at h
  split at h
  · simp at h
  · next hgiven =>
    have htext : response.textOr "lease_id" "" = (response.get "lease_id").text :=
      Dict.textOr_of_truthy "" (by simpa using hgiven)
    split at h
    · split at h
      · simp [rejectResponse] at h
      · next rebound hrebound =>
        split at h
        · simp [rejectResponse] at h
        · next checked hchecked =>
          simp only [Prod.mk.injEq, Except.ok.injEq] at h
          obtain ⟨-, rfl, rfl⟩ := h
          exact ⟨hchecked, Or.inl ⟨rebound, _, hrebound, rfl, rfl, rfl, rfl⟩⟩
    · next lease hlease =>
      split at h
      · simp [rejectResponse] at h
      · split at h
        · simp [rejectResponse] at h
        · next item hitem =>
          split at h
          · simp [rejectResponse] at h
          · next checked hchecked =>
            split at h
            · simp at h
            · simp [rejectResponse] at h
            · simp only [Prod.mk.injEq, Except.ok.injEq] at h
              obtain ⟨-, rfl, rfl⟩ := h
              exact ⟨hchecked, Or.inr ⟨htext.symm, hlease, rfl, hitem⟩⟩

theorem prepare_from {session session' : Session} (hkeyed : LeasesKeyed session)
    {files : FileSystem} {response expanded : Dict} {now : Int} {prepared : PreparedSubmission}
    (h : prepareActionResponseSubmission session files response now =
      (session', .ok (expanded, prepared))) : PreparedFrom session response prepared := by
  rcases (prepare_ok h).2 with ⟨rebound, _, hrebound, hid, hlease, hitemId, hitem⟩ |
    ⟨hid, hlease, hheld, hitem⟩
  · obtain ⟨hfound, hheld, hfoundItem, hstripped, hrole, hagent⟩ := rebound_spec hkeyed hrebound
    constructor
    · rw [hid, hlease]
      exact hfound
    · rw [hlease, hitemId]
      exact hheld
    · rw [hitemId, hitem]
      exact hfoundItem
    · rw [hlease]
      exact Or.inr ⟨hagent, hrole, hheld.trans hstripped⟩
  · exact ⟨hlease, hheld, hitem, Or.inl hid⟩

/-- The fields that say which lease a response is for. -/
def addressFields : List String := ["lease_id", "agent_id", "item_id"]

theorem Answers.congr {response other : Dict}
    (h : ∀ field ∈ addressFields, response.get field = other.get field) {leaseId : String}
    {lease : Lease} (hanswers : Answers response leaseId lease) :
    Answers other leaseId lease := by
  unfold Answers Dict.textOr at *
  rwa [h "lease_id" (by decide), h "agent_id" (by decide), h "item_id" (by decide)] at hanswers

/-- Preparing keeps the address of a response. -/
theorem prepare_address {session session' : Session} {files : FileSystem}
    {response expanded : Dict} {now : Int} {prepared : PreparedSubmission}
    (h : prepareActionResponseSubmission session files response now =
      (session', .ok (expanded, prepared))) :
    ∀ field ∈ addressFields, expanded.get field = response.get field := by
  intro field hfield
  have hchecked := (prepare_ok h).1
  unfold checkResponse at hchecked
  split at hchecked
  · cases hchecked
  · next expanded' hexpanded =>
    split at hchecked
    · cases hchecked
    · obtain rfl := Except.ok.inj hchecked
      refine expandEvidenceRef_get hexpanded ?_
      revert field
      decide

/-- The lease of a refused submission, if it was due, has expired with its item. -/
structure ExpiresLease (s s' : Session) (leaseId : String) (lease : Lease) (now : Int) : Prop where
  found : s.leases[leaseId]? = some lease
  active : lease.isActive = true
  touches : Touches s s' leaseId (fun _ => expiredLease lease now) lease.itemId
    (openedItem (expiredLease lease now) ∘ returnedItem lease.leaseId)

theorem NotesOnly.expiresLease {s s' s'' : Session} {leaseId : String} {lease : Lease} {now : Int}
    (h : ExpiresLease s s' leaseId lease now) (hnotes : NotesOnly s' s'') :
    ExpiresLease s s'' leaseId lease now :=
  ⟨h.found, h.active, h.touches.trans
    (.of_tables hnotes.root hnotes.leases hnotes.items leaseId lease.itemId)⟩

theorem raiseSubmissionError_notes (s : Session) (reasonCode detail : String) (lease : Lease)
    (args : SubmitArgs) : NotesOnly s (raiseSubmissionError s reasonCode detail lease args).1 :=
  ⟨fun _ _ => rfl, rfl, rfl, fun _ hrecord => Or.inl hrecord⟩

/-- A refused submission changes the lease only if it has run out. -/
theorem submitLease_error {s s' : Session} {leaseId : String} {args : SubmitArgs}
    {error : LeaseError} (h : submitLease s leaseId args = (s', .error error)) :
    NotesOnly s s' ∨ ∃ lease, ExpiresLease s s' leaseId lease args.now := by
  unfold submitLease at h
  split at h
  · exact Or.inl ((Prod.mk.inj h).1 ▸ .refl s)
  · next lease hlease =>
    have hraised : ∀ reasonCode detail,
        raiseSubmissionError s reasonCode detail lease args = (s', .error error) →
        NotesOnly s s' := by
      intro reasonCode detail hraise
      have hnotes := raiseSubmissionError_notes s reasonCode detail lease args
      rwa [hraise] at hnotes
    split at h
    · exact Or.inl (hraised _ _ h)
    · split at h
      · exact Or.inl (hraised _ _ h)
      · next hactive =>
        split at h
        · exact Or.inl (hraised _ _ h)
        · split at h
          · exact Or.inl (hraised _ _ h)
          · split at h
            · exact Or.inl (hraised _ _ h)
            · split at h
              · right
                obtain ⟨rfl, -⟩ := Prod.mk.inj h
                have hstatus : lease.status = .active := by simpa using hactive
                refine ⟨lease, hlease, by simp [Lease.isActive, hstatus, LeaseStatus.isActive], ?_⟩
                let recorded := appendLeaseRecoveryEvent s (submissionRecovery s leaseId args)
                  args.now
                have htouches := expireLease_touches (s := recorded) hlease args.now
                exact ⟨htouches.root, htouches.leases, htouches.items⟩
              · split at h
                · exact Or.inl (hraised _ _ h)
                · simp at h

theorem submitLease_ok {s s' : Session} {leaseId : String} {args : SubmitArgs} {lease : Lease}
    (h : submitLease s leaseId args = (s', .ok lease)) :
    s'.leases[leaseId]? = some lease ∧ lease.status = .submitted := by
  unfold submitLease at h
  split at h
  · simp at h
  · repeat' split at h
    all_goals simp only [raiseSubmissionError, Prod.mk.injEq, reduceCtorEq, and_false,
      Except.ok.injEq] at h
    obtain ⟨rfl, rfl⟩ := h
    exact ⟨by simp [appendLeaseEvent], rfl⟩

/-- A lease that was just submitted is accepted. -/
theorem submitAndAcceptLease_error {s s' : Session} {leaseId : String} {args : SubmitArgs}
    {error : LeaseError} (h : submitAndAcceptLease s leaseId args = (s', .error error)) :
    submitLease s leaseId args = (s', .error error) := by
  unfold submitAndAcceptLease at h
  split at h
  · next submitted refusal hsubmit =>
    rw [hsubmit]
    exact h
  · next submitted lease hsubmit =>
    obtain ⟨hlease, hstatus⟩ := submitLease_ok hsubmit
    simp [acceptLease, hlease, hstatus] at h

theorem acceptSubmission_rejected {s s' : Session} {response : Dict}
    {prepared : PreparedSubmission} {now : Int} {rejection : Rejection}
    (h : acceptActionResponseSubmission s response prepared now =
      (s', .error (.rejected rejection))) :
    NotesOnly s s' ∨ ∃ lease, ExpiresLease s s' prepared.leaseId lease now := by
  unfold acceptActionResponseSubmission at h
  split at h
  · simp at h
  · next refused reasonCode detail recovery hrefused =>
    have hsubmit := submitLease_error (submitAndAcceptLease_error hrefused)
    simp only at h
    split at h
    · have hnotes := rejectResponse_notes (α := Acceptance) refused response now
        ⟨reasonCode, prepared.itemId, prepared.leaseId, recovery⟩
      rw [h] at hnotes
      rcases hsubmit with hsubmit | ⟨lease, hsubmit⟩
      · exact Or.inl (hsubmit.trans hnotes)
      · exact Or.inr ⟨lease, hnotes.expiresLease hsubmit⟩
    · split at h <;> simp at h
  · simp at h

/-- Refreshed metadata is put in place before the response is accepted. -/
theorem acceptMutation_loaded (metadata : Option Dict) (submission : ResponseSubmission)
    (response : Dict) (s : Session) :
    acceptMutation metadata submission response s =
      acceptMutation none submission response (metadata.elim s s.setMetadata) := by
  cases metadata <;> rfl

/-- A response that the transaction rejects has at most run out its lease. -/
theorem acceptMutation_rejected {current changed : Session} {metadata : Option Dict}
    {submission : ResponseSubmission} {response : Dict} {rejection : Rejection}
    (hkeyed : LeasesKeyed current)
    (h : acceptMutation metadata submission response current = .ok (changed, .error rejection)) :
    NotesOnly current changed ∨ ∃ prepared, PreparedFrom current response prepared ∧
      ExpiresLease current changed prepared.leaseId prepared.lease submission.now := by
  let loaded := metadata.elim current current.setMetadata
  have hloaded : NotesOnly current loaded := by
    cases metadata with
    | none => exact .refl current
    | some metadata => exact setMetadata_notes current metadata
  have hloadedKeyed : LeasesKeyed loaded := by
    unfold LeasesKeyed
    rw [hloaded.leases]
    exact hkeyed
  rw [acceptMutation_loaded] at h
  unfold acceptMutation at h
  simp only at h
  split at h
  · cases h
  · cases h
  · next session expanded prepared hprepared =>
    have hprepared : prepareActionResponseSubmission loaded submission.files response
        submission.now = (session, .ok (expanded, prepared)) := hprepared
    have hfrom := prepare_from hloadedKeyed hprepared
    obtain rfl : session = loaded := prepare_same hprepared
    split at h
    · simp at h
    · next accepted refusal haccepted =>
      simp only [Except.ok.injEq, Prod.mk.injEq, Except.error.injEq] at h
      obtain ⟨rfl, rfl⟩ := h
      rcases acceptSubmission_rejected haccepted with hnotes | ⟨lease, hexpires⟩
      · exact Or.inl (hloaded.trans hnotes)
      · right
        obtain rfl := Option.some.inj (hfrom.lease.symm.trans hexpires.found)
        have hlease : current.leases[prepared.leaseId]? = some prepared.lease := by
          rw [← hloaded.leases]
          exact hfrom.lease
        have hitem : current.items[prepared.itemId]? = some prepared.item := by
          rw [← hloaded.items]
          exact hfrom.item
        refine ⟨prepared, ⟨hlease, hfrom.held, hitem, hfrom.answers⟩, hlease, hexpires.active, ?_⟩
        exact (Touches.of_tables hloaded.root hloaded.leases hloaded.items prepared.leaseId
          prepared.lease.itemId).trans hexpires.touches
    · cases h

theorem releaseIrrecoverable_touches {s noted : Session} {response : Dict}
    {prepared : PreparedSubmission} (hfrom : PreparedFrom s response prepared)
    (hnotes : NotesOnly s noted) (now : Int) :
    Touches s (releaseIrrecoverableRequestLease noted prepared now) prepared.leaseId
      (if prepared.lease.isActive then
        fun _ => releasedLease prepared.lease now (some "stale_request_context")
      else id)
      prepared.itemId (resetIrrecoverableItem prepared.leaseId) := by
  have hlease : noted.leases[prepared.leaseId]? = some prepared.lease := by
    rw [hnotes.leases]
    exact hfrom.lease
  have hstart := Touches.of_tables hnotes.root hnotes.leases hnotes.items prepared.leaseId
    prepared.itemId
  unfold releaseIrrecoverableRequestLease
  simp only [hlease, Option.any_some]
  split
  · next hactive =>
    have hreleased := releaseLease_touches hlease hactive now (some "stale_request_context")
      prepared.itemId
    exact (hstart.trans hreleased).trans (modifyItem_touches _ _ _ _)
  · exact hstart.trans (modifyItem_touches _ _ _ _)

end GhAddressCr
