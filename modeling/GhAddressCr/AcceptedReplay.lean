import GhAddressCr.AnsweredFindings

/-!
# Replaying accepted responses

The event of an accepted response carries a snapshot of it, from which the item can be built
again. The snapshot leaves out the revision binding, which the item keeps where the response
was bound to a stack.
-/
namespace GhAddressCr

open PyText

/-- The binding of a response to a revision of its stack. -/
def revisionBindingOf (response : Dict) : Option Value :=
  truthyField response "_runtime_revision_binding"

/-- The responses agree in every field that is applied but the binding. -/
structure SameEvidence (response other : Dict) : Prop where
  fields : ∀ key ∈ ["resolution", "note", "reply_markdown", "fix_reply", "evidence_ref"],
    response.get key = other.get key
  lists : ∀ key ∈ ["files", "validation_commands"], listField response key = listField other key

theorem truthyField_of_get {response other : Dict} {key : String}
    (h : response.get key = other.get key) : truthyField response key = truthyField other key := by
  simp only [truthyField, h]

/-- A field that is missing counts as an empty list, which is not applied either. -/
theorem truthyField_of_listField {response other : Dict} {key : String}
    (h : listField response key = listField other key) :
    truthyField response key = truthyField other key := by
  have hlisted : ∀ d : Dict, truthyField d key =
      if (listField d key).truthy then some (listField d key) else none := by
    intro d
    unfold truthyField listField Dict.get
    cases d[key]? with
    | none => simp [Value.truthy]
    | some value => rfl
  rw [hlisted, hlisted, h]

/-- The snapshot keeps what is applied, except for the binding. -/
theorem replayable_sameEvidence (response : Dict) :
    SameEvidence (replayableActionResponse response) response := by
  have hgiven : ∀ value : Value, (given value).getD .null = value := by
    intro value
    cases value <;> rfl
  constructor
  · intro key hkey
    simp only [List.mem_cons, List.not_mem_nil, or_false] at hkey
    rcases hkey with rfl | rfl | rfl | rfl | rfl <;>
      simp [replayableActionResponse, Dict.ofFields, Dict.get_insert, hgiven]
  · intro key hkey
    simp only [List.mem_cons, List.not_mem_nil, or_false] at hkey
    rcases hkey with rfl | rfl <;>
      simp only [listField, replayableActionResponse, List.foldl_cons, List.foldl_nil,
        Dict.getElem?_setIfSome, Dict.ofFields, Std.ExtTreeMap.getElem?_insert,
        Std.LawfulEqCmp.compare_eq_iff_eq, String.reduceEq, if_false, if_true, Option.getD_some]

theorem revisionBindingOf_replayable (response : Dict) :
    revisionBindingOf (replayableActionResponse response) = none := by
  simp [revisionBindingOf, truthyField, replayableActionResponse, Dict.ofFields, Dict.get_insert]

/-- The evidence of a thread differs in its binding only. -/
theorem acceptedResponse_eq {response other : Dict} (h : SameEvidence response other)
    (hunbound : revisionBindingOf response = none) :
    acceptedResponse response = acceptedResponse other ↔ revisionBindingOf other = none := by
  have hbinding : ∀ d : Dict, (acceptedResponse d)["revision_binding"]? = revisionBindingOf d := by
    intro d
    unfold acceptedResponse revisionBindingOf
    rw [Dict.getElem?_setIfSome_of_ne _ _ (by decide), Dict.getElem?_setIfSome, if_pos rfl]
    simp only [Dict.ofFields, List.foldl_cons, List.foldl_nil, Std.ExtTreeMap.getElem?_insert,
      Std.LawfulEqCmp.compare_eq_iff_eq, String.reduceEq, if_false, Std.ExtTreeMap.getElem?_empty,
      Option.or_none]
  constructor
  · intro heq
    rw [← hbinding, ← heq, hbinding, hunbound]
  · intro hother
    unfold acceptedResponse
    rw [h.fields "note" (by simp), h.fields "resolution" (by simp),
      h.fields "reply_markdown" (by simp), h.fields "fix_reply" (by simp),
      h.lists "files" (by simp), h.lists "validation_commands" (by simp),
      truthyField_of_get (h.fields "evidence_ref" (by simp))]
    rw [show truthyField response "_runtime_revision_binding" = none from hunbound,
      show truthyField other "_runtime_revision_binding" = none from hother]

/-- The items agree up to the time at which they were handled. -/
def SameButHandledAt (item other : Dict) : Prop :=
  ∀ key : String, "handled_at" ≠ key → item[key]? = other[key]?

/-- The binding of the response does not change the item, or there is none. -/
def BindingUnused (item response : Dict) : Prop :=
  revisionBindingOf response = none ∨
    (item.get "item_kind" ≠ .str "github_thread" ∧
      item["revision_binding"]? = revisionBindingOf response)

theorem applyResponseToThread_same_iff {item response other : Dict}
    (h : SameEvidence response other) (hunbound : revisionBindingOf response = none) :
    SameButHandledAt (applyResponseToThread item response) (applyResponseToThread item other) ↔
      revisionBindingOf other = none := by
  have hresolution := h.fields "resolution" (by simp)
  constructor
  · intro hsame
    have haccepted := hsame "accepted_response" (by decide)
    simp only [applyResponseToThread, Dict.getElem?_set, if_true, Option.some.injEq] at haccepted
    have heq : acceptedResponse response = acceptedResponse other := by
      have hdicts := congrArg Value.toDict? haccepted
      simpa using hdicts
    exact (acceptedResponse_eq h hunbound).mp heq
  · intro hother key _
    unfold applyResponseToThread
    rw [hresolution, (acceptedResponse_eq h hunbound).mpr hother]

/-- The second item is the first with a binding put on it, up to the handling time. -/
def AddsBinding (binding : Option Value) (item item' : Dict) : Prop :=
  ∀ key : String, "handled_at" ≠ key →
    item'[key]? = if "revision_binding" = key then binding.or item[key]? else item[key]?

section AddsBinding

variable {binding : Option Value} {item item' : Dict}

theorem AddsBinding.refl (item : Dict) : AddsBinding none item item := by
  intro key _
  simp

theorem AddsBinding.set (h : AddsBinding binding item item') {field : String}
    (hfield : "revision_binding" ≠ field) (value : Value) :
    AddsBinding binding (item.set field value) (item'.set field value) := by
  intro key hkey
  rw [Dict.getElem?_set, Dict.getElem?_set, h key hkey]
  by_cases hsame : field = key
  · subst hsame
    simp [hfield]
  · simp [hsame]

theorem AddsBinding.setHandledAt (h : AddsBinding binding item item') (now then' : Int) :
    AddsBinding binding (item.set "handled_at" (.time then'))
      (item'.set "handled_at" (.time now)) := by
  intro key hkey
  rw [Dict.getElem?_set, Dict.getElem?_set, if_neg hkey, if_neg hkey, h key hkey]

theorem AddsBinding.setIfSome (h : AddsBinding binding item item') {field : String}
    (hfield : "revision_binding" ≠ field) (value : Option Value) :
    AddsBinding binding (item.setIfSome field value) (item'.setIfSome field value) := by
  cases value with
  | none => exact h
  | some value => exact h.set hfield value

theorem AddsBinding.bind (h : AddsBinding none item item') (binding : Option Value) :
    AddsBinding binding item (item'.setIfSome "revision_binding" binding) := by
  intro key hkey
  rw [Dict.getElem?_setIfSome, h key hkey]
  by_cases hsame : "revision_binding" = key <;> simp [hsame]

theorem AddsBinding.same_iff (h : AddsBinding binding item item') :
    SameButHandledAt item item' ↔ binding = none ∨ item["revision_binding"]? = binding := by
  constructor
  · intro hsame
    have hbinding := h "revision_binding" (by decide)
    rw [if_pos rfl, ← hsame "revision_binding" (by decide)] at hbinding
    cases binding with
    | none => exact Or.inl rfl
    | some value => exact Or.inr hbinding
  · intro hbinding key hkey
    rw [h key hkey]
    split
    · next hsame =>
      subst hsame
      rcases hbinding with rfl | hheld
      · rw [Option.none_or]
      · rw [hheld, Option.or_self]
    · rfl

end AddsBinding

/-- Another response with the same evidence leaves only its binding on a local item. -/
theorem applyResponseToLocalItem_adds {item response other : Dict}
    (h : SameEvidence response other) (hunbound : revisionBindingOf response = none)
    (now then' : Int) :
    AddsBinding (revisionBindingOf other) (applyResponseToLocalItem item response then')
      (applyResponseToLocalItem item other now) := by
  have hnone : truthyField response "_runtime_revision_binding" = none := hunbound
  have hfiles := truthyField_of_listField (h.lists "files" (by simp))
  have hmarkdown := truthyField_of_get (h.fields "reply_markdown" (by simp))
  have hreply := truthyField_of_get (h.fields "fix_reply" (by simp))
  have hevidence := truthyField_of_get (h.fields "evidence_ref" (by simp))
  unfold applyResponseToLocalItem
  simp only [List.foldl_cons, List.foldl_nil]
  rw [h.fields "resolution" (by simp), h.fields "note" (by simp),
    h.lists "validation_commands" (by simp), hfiles, hmarkdown, hreply, hevidence, hnone]
  iterate 4 refine AddsBinding.setIfSome ?_ (by decide) _
  iterate 3 refine AddsBinding.set ?_ (by decide) _
  refine AddsBinding.bind ?_ _
  iterate 2 refine AddsBinding.set ?_ (by decide) _
  refine AddsBinding.setHandledAt ?_ _ _
  iterate 4 refine AddsBinding.set ?_ (by decide) _
  exact .refl item

/-- An item that is not a thread keeps the binding that it had. -/
theorem applyResponseToLocalItem_binding {item response : Dict}
    (hunbound : revisionBindingOf response = none) (now : Int) :
    (applyResponseToLocalItem item response now)["revision_binding"]? =
      item["revision_binding"]? := by
  have hnone : truthyField response "_runtime_revision_binding" = none := hunbound
  simp [applyResponseToLocalItem, Dict.getElem?_setIfSome, Dict.getElem?_set, hnone]

/-- A response is replayed from its snapshot unless it leaves a binding on the item. -/
theorem applyResponse_replayable_iff (item response : Dict) (now then' : Int) :
    SameButHandledAt (applyResponseToItem item (replayableActionResponse response) then')
      (applyResponseToItem item response now) ↔ BindingUnused item response := by
  have h := replayable_sameEvidence response
  have hunbound := revisionBindingOf_replayable response
  unfold applyResponseToItem BindingUnused
  split
  · next hthread =>
    rw [applyResponseToThread_same_iff h hunbound]
    simp [hthread]
  · next hlocal =>
    rw [(applyResponseToLocalItem_adds h hunbound now then').same_iff,
      applyResponseToLocalItem_binding hunbound]
    simp [hlocal]

/-- The snapshot in the event of an accepted response, applied to an item. -/
def replayAccepted (record : EvidenceRecord) (item : Dict) (now : Int) : Option Dict :=
  (record.payload.get "response").toDict?.map fun snapshot => applyResponseToItem item snapshot now

theorem finishAcceptance_snapshot {s s' : Session} {response : Dict}
    {prepared : PreparedSubmission} {now : Int} {record : EvidenceRecord}
    (h : finishAcceptance s response prepared now = (s', .accepted record)) :
    record.payload.get "response" = (replayableActionResponse response).toValue := by
  unfold finishAcceptance at h
  split at h
  · simp at h
  · simp only [Prod.mk.injEq, Acceptance.accepted.injEq] at h
    obtain ⟨-, rfl⟩ := h
    simp [acceptanceRecord, EvidenceRecord.new, Dict.ofFields, Dict.get_insert]

/-- The event of an accepted response holds the snapshot of that response. -/
theorem acceptSubmission_snapshot {s s' : Session} {response : Dict}
    {prepared : PreparedSubmission} {now : Int} {record : EvidenceRecord}
    (h : acceptActionResponseSubmission s response prepared now = (s', .ok (.accepted record))) :
    record.payload.get "response" = (replayableActionResponse response).toValue := by
  unfold acceptActionResponseSubmission at h
  split at h
  · simp only [Prod.mk.injEq, Except.ok.injEq] at h
    exact finishAcceptance_snapshot (Prod.ext h.1 h.2)
  · simp only at h
    split at h
    · simp [rejectResponse] at h
    · split at h
      · simp only [Prod.mk.injEq, Except.ok.injEq] at h
        exact finishAcceptance_snapshot (Prod.ext h.1 h.2)
      · simp at h
  · simp at h

/-- What the event rebuilds, and what the acceptance has made of the item. -/
theorem acceptSubmission_rebuilt {s s' : Session} {response item : Dict}
    {prepared : PreparedSubmission} {now : Int} {record : EvidenceRecord}
    (h : acceptActionResponseSubmission s response prepared now = (s', .ok (.accepted record)))
    (hitem : s.items[record.itemId]? = some item) (replayedAt : Int) :
    replayAccepted record item replayedAt =
        some (applyResponseToItem item (replayableActionResponse response) replayedAt) ∧
      s'.items[record.itemId]? = some (applyResponseToItem item response now) := by
  obtain ⟨hrecord, haccepts⟩ := acceptSubmission_accepted h
  constructor
  · rw [replayAccepted, acceptSubmission_snapshot h, Value.toDict?_toValue]
    rfl
  · rw [haccepts.items, if_pos hrecord, hitem]
    rfl

/-- The event of an accepted response rebuilds the item. -/
def Rebuilds (record : EvidenceRecord) (item : Dict) (after : Session) (replayedAt : Int) : Prop :=
  ∃ rebuilt updated, replayAccepted record item replayedAt = some rebuilt ∧
    after.items[record.itemId]? = some updated ∧ SameButHandledAt rebuilt updated

theorem rebuilds_iff {record : EvidenceRecord} {item rebuilt updated : Dict} {after : Session}
    {replayedAt : Int} (hrebuilt : replayAccepted record item replayedAt = some rebuilt)
    (hupdated : after.items[record.itemId]? = some updated) :
    Rebuilds record item after replayedAt ↔ SameButHandledAt rebuilt updated := by
  constructor
  · rintro ⟨rebuilt', updated', hreplay, hnow, hsame⟩
    obtain rfl := Option.some.inj (hrebuilt.symm.trans hreplay)
    obtain rfl := Option.some.inj (hupdated.symm.trans hnow)
    exact hsame
  · intro hsame
    exact ⟨rebuilt, updated, hrebuilt, hupdated, hsame⟩

/-- An accepted response is rebuilt from its event on the item it was for, up to the time at
which it was handled, exactly when it leaves no binding there. -/
theorem accepted_response_replays_iff {s s' : Session} {response item : Dict}
    {prepared : PreparedSubmission} {now : Int} {record : EvidenceRecord}
    (h : acceptActionResponseSubmission s response prepared now = (s', .ok (.accepted record)))
    (hitem : s.items[record.itemId]? = some item) (replayedAt : Int) :
    Rebuilds record item s' replayedAt ↔ BindingUnused item response := by
  obtain ⟨hrebuilt, hupdated⟩ := acceptSubmission_rebuilt h hitem replayedAt
  rw [rebuilds_iff hrebuilt hupdated]
  exact applyResponse_replayable_iff item response now replayedAt

/-- A thread that an agent holds, in a pull request of a stack. -/
def stackedThread : Dict :=
  Dict.ofFields
    [("item_id", .str "thread"), ("item_kind", .str "github_thread"), ("state", .str "claimed")]

def stackedLease : Lease where
  leaseId := "lease"
  itemId := "thread"
  agentId := "agent"
  role := .fixer
  status := .active
  createdAt := 0
  expiresAt := 3600
  resumeToken := none
  requestHash := "hash"
  requestId := some "request"
  requestPath := some "/w/request.json"
  conflictKeys := []

def stackedSession : Session where
  root := Dict.ofFields [("session_id", .str "session")]
  items := Std.ExtTreeMap.ofList [("thread", stackedThread)] compare
  leases := Std.ExtTreeMap.ofList [("lease", stackedLease)] compare
  leaseEvents := []

/-- The thread is clarified; the binding is what the request was issued with. -/
def clarifyingResponse (binding : Option Dict) : Dict :=
  (Dict.ofFields
    [("request_id", .str "request"), ("lease_id", .str "lease"), ("agent_id", .str "agent"),
      ("resolution", .str "clarify"), ("note", .str "why"),
      ("reply_markdown", .str "Because.")]).setIfSome "_runtime_revision_binding"
    (binding.map (·.toValue))

def stackedSubmission : PreparedSubmission where
  leaseId := "lease"
  lease := stackedLease
  itemId := "thread"
  item := stackedThread
  expectedRequestHash := "hash"

/-- The binding of a request issued for the second of two stacked pull requests. -/
def stackedBinding : Dict :=
  Dict.ofFields
    [("schema_version", .str revisionBindingSchemaVersion), ("pr_number", .str "102"),
      ("head_oid", .str "b2"), ("head_tree_oid", .str "t2"), ("stack_number", .int 7),
      ("stack_position", .int 2), ("captured_at", .str "2026-08-01T12:00:00Z")]

theorem clarifying_accepted (binding : Option Dict) : ∃ after record,
    acceptActionResponseSubmission stackedSession (clarifyingResponse binding) stackedSubmission 1 =
        (after, .ok (.accepted record)) ∧
      stackedSession.items[record.itemId]? = some stackedThread := by
  have hthread : stackedSession.items["thread"]? = some stackedThread := by decide
  cases binding with
  | none => exact ⟨_, _, rfl, hthread⟩
  | some binding => exact ⟨_, _, rfl, hthread⟩

/-- A response that is bound to no stack is rebuilt. -/
theorem accepted_response_replays_unbound : ∃ after record,
    acceptActionResponseSubmission stackedSession (clarifyingResponse none) stackedSubmission 1 =
        (after, .ok (.accepted record)) ∧
      (Rebuilds record stackedThread after 2 ↔
        BindingUnused stackedThread (clarifyingResponse none)) := by
  obtain ⟨after, record, haccept, hitem⟩ := clarifying_accepted none
  exact ⟨after, record, haccept, accepted_response_replays_iff haccept hitem 2⟩

/-- The event of a response that is bound to its stack rebuilds the thread without the
binding. -/
theorem bound_response_not_replayed : ¬ ∀ (s s' : Session) (response item : Dict)
    (prepared : PreparedSubmission) (now replayedAt : Int) (record : EvidenceRecord),
    acceptActionResponseSubmission s response prepared now = (s', .ok (.accepted record)) →
      s.items[record.itemId]? = some item → Rebuilds record item s' replayedAt := by
  intro hclaim
  obtain ⟨after, record, haccept, hitem⟩ := clarifying_accepted (some stackedBinding)
  have hrebuilds := hclaim _ _ _ _ _ _ 2 _ haccept hitem
  obtain ⟨hrebuilt, hupdated⟩ := acceptSubmission_rebuilt haccept hitem 2
  rw [rebuilds_iff hrebuilt hupdated, applyResponse_replayable_iff] at hrebuilds
  rcases hrebuilds with hunbound | ⟨hlocal, -⟩
  · have hbound : (revisionBindingOf (clarifyingResponse (some stackedBinding))).isSome = true := by
      decide +kernel
    rw [hunbound] at hbound
    cases hbound
  · exact hlocal (by decide)

end GhAddressCr
