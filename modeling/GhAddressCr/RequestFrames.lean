import GhAddressCr.AnsweredFindings

/-!
# What requests are built from

A request is built from a few fields of its item, which most commands leave as they are. They
may write the evidence that a request carries, but only as an object. The exceptions are what
comes in from outside, validation evidence that is recorded, and a response that is accepted on a
local finding.
-/
namespace GhAddressCr

open PyText GithubThreadState RuntimeStore

/-- The fields a request is built from, apart from its evidence. -/
def requestFields : List String :=
  ["item_id", "item_kind", "allowed_actions", "conflict_keys", "validation_evidence"]

/-- The evidence that a request carries. -/
def evidenceFields : List String := ["classification_evidence", "reply_evidence"]

/-- The items agree in what a request is built from, and evidence that was written is an
object. -/
structure SameRequest (item item' : Dict) : Prop where
  fields : ∀ field ∈ requestFields, item'[field]? = item[field]?
  evidence : ∀ field ∈ evidenceFields,
    item'[field]? = item[field]? ∨ (item'.get field).toDict?.isSome = true

namespace SameRequest

theorem refl (item : Dict) : SameRequest item item := ⟨fun _ _ => rfl, fun _ _ => Or.inl rfl⟩

theorem trans {item item' item'' : Dict} (h : SameRequest item item')
    (h' : SameRequest item' item'') : SameRequest item item'' := by
  refine ⟨fun field hfield => (h'.fields field hfield).trans (h.fields field hfield), ?_⟩
  intro field hfield
  rcases h'.evidence field hfield with hsame' | hwritten
  · rcases h.evidence field hfield with hsame | hwritten
    · exact Or.inl (hsame'.trans hsame)
    · refine Or.inr ?_
      unfold Dict.get
      rw [hsame']
      exact hwritten
  · exact Or.inr hwritten

variable {item item' : Dict}

/-- A key is written that requests do not read. -/
theorem set (h : SameRequest item item') {key : String} (value : Value)
    (hkey : key ∉ requestFields ++ evidenceFields) : SameRequest item (item'.set key value) := by
  have hother : ∀ field ∈ requestFields ++ evidenceFields,
      (item'.set key value)[field]? = item'[field]? := by
    intro field hfield
    rw [Dict.getElem?_set, if_neg]
    rintro rfl
    exact hkey hfield
  refine h.trans ⟨fun field hfield => ?_, fun field hfield => Or.inl ?_⟩
  · exact hother field (List.mem_append_left _ hfield)
  · exact hother field (List.mem_append_right _ hfield)

theorem setIfSome (h : SameRequest item item') {key : String} (value : Option Value)
    (hkey : key ∉ requestFields ++ evidenceFields) :
    SameRequest item (item'.setIfSome key value) := by
  cases value with
  | none => exact h
  | some value => exact h.set value hkey

theorem setDefault (h : SameRequest item item') {key : String} (value : Value)
    (hkey : key ∉ requestFields ++ evidenceFields) :
    SameRequest item (item'.setDefault key value) := by
  unfold Dict.setDefault
  split
  · exact h
  · exact h.set value hkey

theorem pop (h : SameRequest item item') {key : String}
    (hkey : key ∉ requestFields ++ evidenceFields) : SameRequest item (item'.pop key) := by
  have hother : ∀ field ∈ requestFields ++ evidenceFields,
      (item'.pop key)[field]? = item'[field]? := by
    intro field hfield
    rw [Dict.getElem?_pop, if_neg]
    rintro rfl
    exact hkey hfield
  refine h.trans ⟨fun field hfield => ?_, fun field hfield => Or.inl ?_⟩
  · exact hother field (List.mem_append_left _ hfield)
  · exact hother field (List.mem_append_right _ hfield)

/-- Evidence is written as an object. -/
theorem setEvidence (h : SameRequest item item') {key : String} {value : Value}
    (hkey : key ∉ requestFields) (hvalue : value.toDict?.isSome = true) :
    SameRequest item (item'.set key value) := by
  refine h.trans ⟨fun field hfield => ?_, fun field _ => ?_⟩
  · rw [Dict.getElem?_set, if_neg]
    rintro rfl
    exact hkey hfield
  · by_cases hfield : key = field
    · refine Or.inr ?_
      rw [Dict.get_set, if_pos hfield]
      exact hvalue
    · refine Or.inl ?_
      rw [Dict.getElem?_set, if_neg hfield]

theorem get_kind (h : SameRequest item item') : item'.get "item_kind" = item.get "item_kind" := by
  unfold Dict.get
  rw [h.fields "item_kind" (by decide)]

end SameRequest

/-- The change leaves an item what its request is built from. -/
abbrev KeepsRequest (f : Dict → Dict) : Prop := ∀ item, SameRequest item (f item)

theorem keepsRequest_clearClaimFields : KeepsRequest clearClaimFields := by
  intro item
  unfold clearClaimFields
  exact ((((SameRequest.refl item).set _ (by decide)).set _ (by decide)).set _
    (by decide)).pop (by decide)

theorem keepsRequest_returnToClaimable : KeepsRequest returnItemToClaimableState := by
  intro item
  unfold returnItemToClaimableState
  exact ((SameRequest.refl item).set _ (by decide)).set _ (by decide)

theorem keepsRequest_returnedItem (leaseId : String) : KeepsRequest (returnedItem leaseId) := by
  intro item
  unfold returnedItem
  split
  · exact (keepsRequest_returnToClaimable item).trans (keepsRequest_clearClaimFields _)
  · exact .refl item

theorem keepsRequest_openedItem (lease : Lease) : KeepsRequest (openedItem lease) := by
  intro item
  unfold openedItem
  split
  · exact ((SameRequest.refl item).set _ (by decide)).trans (keepsRequest_clearClaimFields _)
  · exact .refl item

theorem keepsRequest_resetIrrecoverable (leaseId : String) :
    KeepsRequest (resetIrrecoverableItem leaseId) := by
  intro item
  unfold resetIrrecoverableItem
  simp only
  split
  · exact .refl item
  · exact (keepsRequest_returnToClaimable item).trans (keepsRequest_clearClaimFields _)

theorem keepsRequest_markClaimed (leaseId : String) : KeepsRequest (markClaimed leaseId) :=
  fun item => ((SameRequest.refl item).set _ (by decide)).set _ (by decide)

theorem keepsRequest_adoptClassification (claim : PendingClaim) :
    KeepsRequest (adoptClassification claim) := by
  intro item
  unfold adoptClassification
  split
  · next hadopts =>
    have hobject : claim.classification.toDict?.isSome = true :=
      ((Bool.and_eq_true _ _).mp hadopts).1
    exact ((SameRequest.refl item).setEvidence (by decide) hobject).set _ (by decide)
  · exact .refl item

theorem keepsRequest_rolledBackItem : KeepsRequest rolledBackItem := by
  intro item
  unfold rolledBackItem
  refine SameRequest.trans ?_ (keepsRequest_clearClaimFields _)
  split
  · exact keepsRequest_returnToClaimable item
  · exact (keepsRequest_returnToClaimable item).set _ (by decide)

theorem keepsRequest_staleItem : KeepsRequest staleItem :=
  fun item => (((SameRequest.refl item).pop (by decide)).set _ (by decide)).set _ (by decide)

theorem keepsRequest_rejectVerification (response : Dict) :
    KeepsRequest (rejectVerification response) :=
  fun item => (((SameRequest.refl item).set _ (by decide)).set _ (by decide)).set _ (by decide)

/-- A response leaves a thread what its request is built from. -/
theorem keepsRequest_applyToThread (response : Dict) :
    KeepsRequest fun item => applyResponseToThread item response :=
  fun item => (((((SameRequest.refl item).set _ (by decide)).set _ (by decide)).set _
    (by decide)).set _ (by decide)).set _ (by decide)

theorem classificationRecord_isObject (classification note recordId : String) :
    (classificationRecord classification note recordId).toDict?.isSome = true := by
  unfold classificationRecord
  rw [Value.toDict?_toValue]
  rfl

theorem keepsRequest_classifiedItem (record : EvidenceRecord) (args : ClassifyArgs)
    (classification : String) (released : Bool) :
    KeepsRequest (classifiedItem record args classification released) := by
  intro item
  unfold classifiedItem
  have hclassified : SameRequest item
      (((item.set "classification_evidence" (classificationRecord classification args.note
        record.recordId.text)).set "decision" (.str classification)).set "updated_at"
        (.time args.now)) :=
    (((SameRequest.refl item).setEvidence (by decide) (classificationRecord_isObject _ _ _)).set _
      (by decide)).set _ (by decide)
  simp only
  split
  · exact hclassified.trans (keepsRequest_rolledBackItem _)
  · exact hclassified

theorem keepsRequest_restoreClassification (records : List EvidenceRecord) (itemId : String) :
    KeepsRequest (restoreClassificationEvidence records itemId) := by
  intro item
  unfold restoreClassificationEvidence
  simp only
  split
  · exact (SameRequest.refl item).setEvidence (by decide) (classificationRecord_isObject _ _ _)
  · split
    · exact ((SameRequest.refl item).setEvidence (by decide)
        (classificationRecord_isObject _ _ _)).set _ (by decide)
    · exact .refl item

theorem keepsRequest_reopenedItem (now : Int) : KeepsRequest (reopenedItem now) := by
  intro item
  unfold reopenedItem
  exact (((((((SameRequest.refl item).pop (by decide)).pop (by decide)).set _ (by decide)).set _
    (by decide)).set _ (by decide)).set _ (by decide)).set _ (by decide)

theorem replyEvidence_isObject (replyUrl login : Value) :
    (replyEvidence replyUrl login).toDict?.isSome = true := by
  unfold replyEvidence
  rw [Value.toDict?_toValue]
  rfl

theorem keepsRequest_publishedItem (replyUrl login : String) (now : Int) :
    KeepsRequest (publishedItem replyUrl login now) := by
  intro item
  unfold publishedItem
  have hevidence : SameRequest item
      (((item.set "reply_posted" (.bool true)).set "reply_url" (.str replyUrl)).set
        "reply_evidence" (replyEvidence (.str replyUrl) (.str login))) :=
    (((SameRequest.refl item).set _ (by decide)).set _ (by decide)).setEvidence (by decide)
      (replyEvidence_isObject _ _)
  exact ((((((hevidence.set _ (by decide)).set _ (by decide)).set _ (by decide)).set _
    (by decide)).set _ (by decide)).set _ (by decide)).trans (keepsRequest_clearClaimFields _)

theorem keepsRequest_projectClaim (lease : Option Lease) :
    KeepsRequest fun item => projectClaim item lease := by
  intro item
  show SameRequest item (projectClaim item lease)
  unfold projectClaim
  cases lease with
  | some lease =>
      exact (((((SameRequest.refl item).set _ (by decide)).set _ (by decide)).set _
        (by decide)).set _ (by decide)).set _ (by decide)
  | none =>
      simp only
      split
      · exact ((((((SameRequest.refl item).set _ (by decide)).set _ (by decide)).set _
          (by decide)).set _ (by decide)).set _ (by decide)).pop (by decide)
      · exact ((((SameRequest.refl item).set _ (by decide)).set _ (by decide)).set _
          (by decide)).pop (by decide)

/-- The session keeps its id, and what its items' requests are built from, but for the rewritten
items. -/
structure RequestFrame (rewritten : String → Prop) (s s' : Session) : Prop where
  sessionId : s'.root["session_id"]? = s.root["session_id"]?
  items : ∀ (id : String) (item' : Dict), s'.items[id]? = some item' →
    rewritten id ∨ ∃ item, s.items[id]? = some item ∧ SameRequest item item'

/-- Nothing is rewritten. -/
abbrev KeepsRequests : Session → Session → Prop := RequestFrame fun _ => False

namespace RequestFrame

variable {rewritten rewritten' : String → Prop} {s s' s'' : Session}

theorem refl (s : Session) : RequestFrame rewritten s s :=
  ⟨rfl, fun _ item hitem => Or.inr ⟨item, hitem, .refl item⟩⟩

theorem trans (h : RequestFrame rewritten s s') (h' : RequestFrame rewritten' s' s'')
    (hrewritten : ∀ id, rewritten' id → rewritten id) : RequestFrame rewritten s s'' := by
  refine ⟨h'.sessionId.trans h.sessionId, fun id item'' hitem'' => ?_⟩
  rcases h'.items id item'' hitem'' with hid | ⟨item', hitem', hsame'⟩
  · exact Or.inl (hrewritten id hid)
  · rcases h.items id item' hitem' with hid | ⟨item, hitem, hsame⟩
    · exact Or.inl hid
    · exact Or.inr ⟨item, hitem, hsame.trans hsame'⟩

theorem weaken (h : RequestFrame rewritten s s') (hrewritten : ∀ id, rewritten id → rewritten' id) :
    RequestFrame rewritten' s s' :=
  ⟨h.sessionId, fun id item hitem => (h.items id item hitem).imp_left (hrewritten id)⟩

theorem «then» (h : RequestFrame rewritten s s') (h' : RequestFrame rewritten s' s'') :
    RequestFrame rewritten s s'' := h.trans h' fun _ hid => hid

/-- The items are not written. -/
theorem of_items (hsession : s'.root["session_id"]? = s.root["session_id"]?)
    (hitems : s'.items = s.items) : RequestFrame rewritten s s' := by
  refine ⟨hsession, fun id item hitem => Or.inr ⟨item, ?_, .refl item⟩⟩
  rw [← hitems]
  exact hitem

/-- One item is changed, by a function that keeps its request. -/
theorem of_item {itemId : String} {f : Dict → Dict}
    (hsession : s'.root["session_id"]? = s.root["session_id"]?)
    (hitems : ∀ id : String,
      s'.items[id]? = if id = itemId then (s.items[id]?).map f else s.items[id]?)
    (hf : ∀ item, s.items[itemId]? = some item → rewritten itemId ∨ SameRequest item (f item)) :
    RequestFrame rewritten s s' := by
  refine ⟨hsession, fun id item' hitem' => ?_⟩
  rw [hitems] at hitem'
  split at hitem'
  · next hid =>
    subst hid
    obtain ⟨item, hitem, rfl⟩ := Option.map_eq_some_iff.mp hitem'
    exact (hf item hitem).imp_right fun hsame => ⟨item, hitem, hsame⟩
  · exact Or.inr ⟨item', hitem', .refl item'⟩

theorem modifyItem {itemId : String} {f : Dict → Dict} (hf : KeepsRequest f) (s : Session) :
    RequestFrame rewritten s (s.modifyItem itemId f) :=
  .of_item (by simp) (getElem?_modifyItem s itemId f) fun item _ => Or.inr (hf item)

theorem appendEvidence (h : RequestFrame rewritten s s') (record : EvidenceRecord) :
    RequestFrame rewritten s (s'.appendEvidence record) := ⟨h.sessionId, h.items⟩

/-- An item is written over another that has the same request. -/
theorem insertItem {itemId : String} {item item' : Dict} (hitem : s.items[itemId]? = some item)
    (hsame : SameRequest item item') :
    RequestFrame rewritten s { s with items := s.items.insert itemId item' } := by
  refine ⟨rfl, fun id found hfound => Or.inr ?_⟩
  simp only [Std.ExtTreeMap.getElem?_insert, Std.compare_eq_iff_eq] at hfound
  split at hfound
  · next hid =>
    subst hid
    obtain rfl := Option.some.inj hfound
    exact ⟨item, hitem, hsame⟩
  · exact ⟨found, hfound, .refl found⟩

end RequestFrame

theorem KeepsRequests.frame {rewritten : String → Prop} {s s' : Session} (h : KeepsRequests s s') :
    RequestFrame rewritten s s' := h.weaken fun _ hnever => absurd hnever id

theorem NotesOnly.keepsRequests {s s' : Session} (h : NotesOnly s s') : KeepsRequests s s' :=
  .of_items (h.root "session_id" (by decide)) h.items

/-- The item is there, and it is no thread. -/
def NotThread (s : Session) (id : String) : Prop :=
  ∃ item, s.items[id]? = some item ∧ item.get "item_kind" ≠ .str "github_thread"

theorem KeepsRequests.notThread {s s' : Session} {id : String} (h : KeepsRequests s s')
    (hid : NotThread s' id) : NotThread s id := by
  obtain ⟨item', hitem', hkind⟩ := hid
  rcases h.items id item' hitem' with hnever | ⟨item, hitem, hsame⟩
  · exact hnever.elim
  · exact ⟨item, hitem, by rwa [← hsame.get_kind]⟩

theorem expireRows_keepsRequests (now : Int) {rows : List (String × Lease)}
    {acc : Session × List Lease} (hdistinct : rows.Pairwise fun a b => a.1 ≠ b.1)
    (hheld : ∀ row ∈ rows, acc.1.leases[row.1]? = some row.2) :
    KeepsRequests acc.1 (rows.foldl (expireLeaseIfDue now) acc).1 := by
  induction rows generalizing acc with
  | nil => exact .refl acc.1
  | cons row rows ih =>
      obtain ⟨hne, hrest⟩ := List.pairwise_cons.mp hdistinct
      have hrow := hheld row List.mem_cons_self
      rw [List.foldl_cons]
      by_cases hdue : (row.2.isActive && isExpired row.2 now) = true
      · have hstep : expireLeaseIfDue now acc row =
            (expireLease acc.1 row.1 row.2 now, acc.2 ++ [expiredLease row.2 now]) := by
          simp only [expireLeaseIfDue, hdue, if_true]
        have htouches := expireLease_touches hrow now
        have hfirst : KeepsRequests acc.1 (expireLease acc.1 row.1 row.2 now) :=
          .of_item (htouches.root _ (by decide)) htouches.items fun item _ =>
            Or.inr ((keepsRequest_returnedItem _ item).trans (keepsRequest_openedItem _ _))
        rw [hstep]
        refine hfirst.then
          (@ih (expireLease acc.1 row.1 row.2 now, _) hrest fun other hother => ?_)
        simp only [expireLease_leases, Std.ExtTreeMap.getElem?_insert, Std.compare_eq_iff_eq,
          hne other hother, if_false]
        exact hheld other (List.mem_cons_of_mem row hother)
      · have hstep : expireLeaseIfDue now acc row = acc := by
          simp only [expireLeaseIfDue, hdue, Bool.false_eq_true, if_false]
        rw [hstep]
        exact ih hrest fun other hother => hheld other (List.mem_cons_of_mem row hother)

theorem expireLeases_keepsRequests (s : Session) (now : Int) :
    KeepsRequests s (expireLeases s now).1 :=
  @expireRows_keepsRequests now _ (s, []) (KeyedRows.pairwise_ne_toList s.leases)
    fun _ hrow => Std.ExtTreeMap.mem_toList_iff_getElem?_eq_some.mp hrow

theorem returnExpired_keepsRequests (s : Session) (expired : List Lease) :
    KeepsRequests s (returnExpiredItemsToOpen s expired) := by
  induction expired generalizing s with
  | nil => exact .refl s
  | cons lease expired ih =>
      have hfirst : KeepsRequests s (returnExpiredItemsToOpen s [lease]) :=
        .of_item (by simp) (returnExpiredItemsToOpen_singleton s lease) fun item _ =>
          Or.inr (keepsRequest_returnedItem lease.leaseId item)
      exact hfirst.then (ih (returnExpiredItemsToOpen s [lease]))

theorem expireAndReturn_keepsRequests (s : Session) (now : Int) :
    KeepsRequests s (expireAndReturn s now) :=
  (expireLeases_keepsRequests s now).then (returnExpired_keepsRequests _ _)

theorem submitLease_keepsRequests (s : Session) (leaseId : String) (args : SubmitArgs) :
    KeepsRequests s (submitLease s leaseId args).1 := by
  have hraised : ∀ reasonCode detail lease,
      KeepsRequests s (raiseSubmissionError s reasonCode detail lease args).1 :=
    fun _ _ _ => .of_items rfl rfl
  unfold submitLease
  split
  · exact .refl s
  · next lease hlease =>
    split
    · exact hraised _ _ _
    · split
      · exact hraised _ _ _
      · split
        · exact hraised _ _ _
        · split
          · exact hraised _ _ _
          · split
            · exact hraised _ _ _
            · split
              · let noted := appendLeaseRecoveryEvent s (submissionRecovery s leaseId args) args.now
                have htouches := @expireLease_touches noted leaseId lease hlease args.now
                exact .of_item (htouches.root _ (by decide)) htouches.items fun item _ =>
                  Or.inr ((keepsRequest_returnedItem _ item).trans (keepsRequest_openedItem _ _))
              · split
                · exact hraised _ _ _
                · exact .of_items rfl rfl

theorem acceptLease_keepsRequests (s : Session) (leaseId : String) (now : Int) :
    KeepsRequests s (acceptLease s leaseId now).1 := by
  refine .of_items ?_ (acceptLease_items s leaseId now)
  unfold acceptLease
  split
  · rfl
  · split <;> rfl

theorem releaseLease_keepsRequests (s : Session) (leaseId : String) (now : Int)
    (reason : Option String) : KeepsRequests s (releaseLease s leaseId now reason).1 := by
  refine .of_items ?_ (releaseLease_items s leaseId now reason)
  unfold releaseLease
  split
  · rfl
  · split <;> rfl

theorem submitAndAcceptLease_keepsRequests (s : Session) (leaseId : String) (args : SubmitArgs) :
    KeepsRequests s (submitAndAcceptLease s leaseId args).1 := by
  have hsubmit := submitLease_keepsRequests s leaseId args
  unfold submitAndAcceptLease
  split
  · next submitted error heq =>
    rw [heq] at hsubmit
    exact hsubmit
  · next submitted lease heq =>
    rw [heq] at hsubmit
    exact hsubmit.then (acceptLease_keepsRequests submitted leaseId args.now)

theorem releaseClaimedLease_keepsRequests (s : Session) (leaseId : String) (now : Int)
    (reason : String) : KeepsRequests s (releaseClaimedLease s leaseId now reason).1 := by
  have hrelease := releaseLease_keepsRequests s leaseId now (some reason)
  unfold releaseClaimedLease
  split
  · exact .refl s
  · split
    · exact .refl s
    · split
      · next session released heq =>
        rw [heq] at hrelease
        exact hrelease.then (returnExpired_keepsRequests session [released])
      · next session error heq =>
        rw [heq] at hrelease
        exact hrelease

/-- A response that is accepted rewrites its item, if it is no thread. -/
def RewrittenBy (s : Session) (itemId : String) (result : Except SubmissionStop Acceptance)
    (id : String) : Prop :=
  id = itemId ∧ NotThread s id ∧ ∃ record, result = .ok (.accepted record)

theorem finishAcceptance_frame (s : Session) (response : Dict) (prepared : PreparedSubmission)
    (now : Int) :
    RequestFrame (RewrittenBy s prepared.itemId
        (.ok (finishAcceptance s response prepared now).2)) s
      (finishAcceptance s response prepared now).1 := by
  unfold finishAcceptance
  split
  · exact (RequestFrame.modifyItem (keepsRequest_rejectVerification response) s).appendEvidence _
  · refine RequestFrame.appendEvidence (.of_item (by simp) (getElem?_modifyItem s _ _)
      fun item hitem => ?_) _
    unfold applyResponseToItem
    split
    · exact Or.inr (keepsRequest_applyToThread response item)
    · next hlocal => exact Or.inl ⟨rfl, ⟨item, hitem, hlocal⟩, _, rfl⟩

/-- The lease was accepted first. -/
theorem acceptedLease_frame {s s' submitted : Session} {response : Dict}
    {prepared : PreparedSubmission} {now : Int} {acceptance : Acceptance}
    (h : KeepsRequests s submitted)
    (hfinish : finishAcceptance submitted response prepared now = (s', acceptance)) :
    RequestFrame (RewrittenBy s prepared.itemId (.ok acceptance)) s s' := by
  have hframe := finishAcceptance_frame submitted response prepared now
  rw [hfinish] at hframe
  refine h.frame.trans hframe fun id hid => ?_
  exact ⟨hid.1, h.notThread hid.2.1, hid.2.2⟩

theorem acceptSubmission_frame (s : Session) (response : Dict) (prepared : PreparedSubmission)
    (now : Int) :
    RequestFrame (RewrittenBy s prepared.itemId
        (acceptActionResponseSubmission s response prepared now).2) s
      (acceptActionResponseSubmission s response prepared now).1 := by
  have haccept := submitAndAcceptLease_keepsRequests s prepared.leaseId
    (prepared.submitArgs response now)
  unfold acceptActionResponseSubmission
  split
  · next submitted lease heq =>
    rw [heq] at haccept
    exact acceptedLease_frame haccept rfl
  · next refused reasonCode detail recovery heq =>
    rw [heq] at haccept
    simp only
    split
    · exact haccept.frame.then
        (rejectResponse_notes (α := Acceptance) refused response now _).keepsRequests.frame
    · next rebound _ =>
      have hrebound := submitAndAcceptLease_keepsRequests refused (prepared.rebind rebound).leaseId
        ((prepared.rebind rebound).submitArgs response now)
      split
      · next submitted lease heq' =>
        rw [heq'] at hrebound
        exact @acceptedLease_frame s _ submitted response (prepared.rebind rebound) now _
          (haccept.then hrebound) rfl
      · next escaped error heq' =>
        rw [heq'] at hrebound
        exact haccept.frame.then hrebound.frame
  · next escaped error _ heq =>
    rw [heq] at haccept
    exact haccept.frame

/-- A response rewrites the finding it is accepted for. -/
theorem acceptMutation_frame {s s' : Session} {metadata : Option Dict}
    {submission : ResponseSubmission} {response : Dict} {result : Except Rejection Acceptance}
    (h : acceptMutation metadata submission response s = .ok (s', result)) :
    RequestFrame
      (fun id => CommandRun.acceptedFinding s metadata submission response = some id) s s' := by
  have hitems : (withMetadata s metadata).items = s.items := by cases metadata <;> rfl
  have hloaded : KeepsRequests s (withMetadata s metadata) := by
    refine .of_items ?_ hitems
    cases metadata with
    | none => rfl
    | some metadata => exact Dict.getElem?_set _ _ _ _
  have hmutation := h
  unfold acceptMutation at h
  simp only at h
  split at h
  · cases h
  · cases h
  · next session expanded prepared hprepare =>
    have hprepared : prepareActionResponseSubmission (withMetadata s metadata) submission.files
        response submission.now = (session, .ok (expanded, prepared)) := hprepare
    obtain rfl : session = withMetadata s metadata := prepare_same hprepared
    have hframe := acceptSubmission_frame (withMetadata s metadata) expanded prepared submission.now
    split at h
    · next accepted acceptance haccept =>
      rw [haccept] at hframe
      obtain ⟨rfl, rfl⟩ := Prod.mk.inj (Except.ok.inj h)
      refine hloaded.frame.trans hframe ?_
      rintro id ⟨rfl, ⟨item, hitem, hkind⟩, record, hrecord⟩
      obtain rfl := Except.ok.inj hrecord
      obtain ⟨hid, -⟩ := acceptSubmission_accepted haccept
      rw [hitems] at hitem
      simp only [CommandRun.acceptedFinding, hmutation, hid, hitem, Option.any_some, hkind,
        ne_eq, not_false_eq_true, decide_true, if_true]
    · next rejected rejection hreject =>
      rw [hreject] at hframe
      obtain ⟨rfl, -⟩ := Prod.mk.inj (Except.ok.inj h)
      refine hloaded.frame.trans hframe ?_
      rintro id ⟨-, -, record, hrecord⟩
      cases hrecord
    · cases h

end GhAddressCr
