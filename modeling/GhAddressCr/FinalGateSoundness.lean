import GhAddressCr.FinalGate

/-!
# The final gate passes exactly on clear evidence

The verdict is followed back from the failure codes to the counts, from the counts to the
rows they filter, and from the rows to the evidence that was given.
-/
namespace GhAddressCr

open PyText GithubThreadState

/-- The facts of the drafts, numbered from `n` on. -/
def numberedFacts (n : Nat) (drafts : List FactDraft) : List RuntimeFact :=
  (drafts.zipIdx n).map fun (draft, sequence) =>
    { factKind := draft.factKind, factId := draft.factId sequence
      observedAt := adapterObservedAt, sequence, payload := draft.payload }

@[simp] theorem numberedFacts_cons (n : Nat) (draft : FactDraft) (drafts : List FactDraft) :
    numberedFacts n (draft :: drafts) =
      { factKind := draft.factKind, factId := draft.factId n
        observedAt := adapterObservedAt, sequence := n, payload := draft.payload } ::
        numberedFacts (n + 1) drafts := rfl

theorem appendFacts_eq (drafts : List FactDraft) : appendFacts drafts = numberedFacts 0 drafts :=
  rfl

theorem sequence_of_mem_numberedFacts {n : Nat} {drafts : List FactDraft} {fact : RuntimeFact}
    (h : fact ∈ numberedFacts n drafts) :
    (n : Int) ≤ fact.sequence ∧ fact.observedAt = adapterObservedAt := by
  induction drafts generalizing n with
  | nil => simp [numberedFacts] at h
  | cons draft drafts ih =>
      rw [numberedFacts_cons, List.mem_cons] at h
      rcases h with rfl | h
      · exact ⟨le_rfl, rfl⟩
      · obtain ⟨hle, hat⟩ := ih h
        exact ⟨by push_cast at hle; omega, hat⟩

theorem numberedFacts_pairwise (n : Nat) (drafts : List FactDraft) :
    (numberedFacts n drafts).Pairwise RuntimeFact.le := by
  induction drafts generalizing n with
  | nil => exact List.Pairwise.nil
  | cons draft drafts ih =>
      rw [numberedFacts_cons]
      refine List.Pairwise.cons ?_ (ih (n + 1))
      intro fact hfact
      obtain ⟨hle, hat⟩ := sequence_of_mem_numberedFacts hfact
      refine Or.inr ⟨hat.symm, Or.inl ?_⟩
      push_cast at hle
      show (n : Int) < fact.sequence
      omega

theorem duplicateFact?_numberedFacts (n : Nat) (drafts : List FactDraft)
    (seen : List (Int × Int × String)) (hseen : ∀ key ∈ seen, key.2.1 < n) :
    duplicateFact? seen (numberedFacts n drafts) = none := by
  induction drafts generalizing n seen with
  | nil => rfl
  | cons draft drafts ih =>
      rw [numberedFacts_cons, duplicateFact?]
      have hnew : (adapterObservedAt, (n : Int), draft.factId n) ∉ seen := by
        intro hmem
        exact lt_irrefl _ (hseen _ hmem)
      simp only [RuntimeFact.sortKey, List.contains_eq_mem, hnew, decide_false, Bool.false_eq_true,
        if_false]
      apply ih
      intro key hkey
      rcases List.mem_cons.mp hkey with rfl | hkey
      · push_cast
        exact Int.lt_succ _
      · have := hseen key hkey
        push_cast
        omega

theorem sortRuntimeFacts_appendFacts (drafts : List FactDraft) :
    sortRuntimeFacts (appendFacts drafts) = .ok (appendFacts drafts) := by
  rw [appendFacts_eq, sortRuntimeFacts,
    duplicateFact?_numberedFacts 0 drafts [] (fun _ h => absurd h List.not_mem_nil)]
  exact congrArg _ (numberedFacts_pairwise 0 drafts).insertionSort_eq

/-- The payloads of the drafts of one kind. -/
def draftPayloads (kind : FactKind) (drafts : List FactDraft) : List Dict :=
  (drafts.filter (·.factKind = kind)).map (·.payload)

@[simp] theorem draftPayloads_nil (kind : FactKind) : draftPayloads kind [] = [] := rfl

@[simp] theorem draftPayloads_cons (kind : FactKind) (d : FactDraft) (ds : List FactDraft) :
    draftPayloads kind (d :: ds) =
      if d.factKind = kind then d.payload :: draftPayloads kind ds else draftPayloads kind ds := by
  by_cases h : d.factKind = kind <;> simp [draftPayloads, h]

@[simp] theorem draftPayloads_append (kind : FactKind) (ds es : List FactDraft) :
    draftPayloads kind (ds ++ es) = draftPayloads kind ds ++ draftPayloads kind es := by
  simp [draftPayloads]

/-- The payloads of the facts are those of the drafts. -/
theorem payloadsOf_appendFacts (kind : FactKind) (drafts : List FactDraft) :
    payloadsOf kind (appendFacts drafts) = draftPayloads kind drafts := by
  have key : ∀ n, payloadsOf kind (numberedFacts n drafts) = draftPayloads kind drafts := by
    induction drafts with
    | nil => exact fun _ => rfl
    | cons draft drafts ih =>
        intro n
        have hrest := ih (n + 1)
        by_cases h : draft.factKind = kind
        · simpa [payloadsOf, h] using hrest
        · simpa [payloadsOf, h] using hrest
  exact key 0

namespace EvidenceBundle

variable (b : EvidenceBundle)

def githubItems : List Dict := b.items.filter fun item => itemKind item = "github_thread"

def localItems : List Dict := b.items.filter fun item => itemKind item = "local_finding"

/-- The payloads of the remote threads' facts. -/
def remoteThreadRows : List Dict := b.remoteThreads.zipIdx.map fun (t, i) => remoteThreadPayload t i

end EvidenceBundle

/-- The payloads drafted for session items: GitHub threads as threads, local findings as
local items, nothing else. -/
theorem draftPayloads_sessionItems (kind : FactKind) (login : Option String) (items : List Dict) :
    draftPayloads kind (items.filterMap (sessionItemDraft login)) =
      (match kind with
        | .reviewThreadObserved => items.filter fun item => itemKind item = "github_thread"
        | .localItemObserved => items.filter fun item => itemKind item = "local_finding"
        | _ => []).map (sessionItemPayload login) := by
  induction items with
  | nil => cases kind <;> rfl
  | cons item items ih =>
      by_cases hg : itemKind item = "github_thread"
      · have hl : itemKind item ≠ "local_finding" := by rw [hg]; decide
        rw [List.filterMap_cons_some (by simp only [sessionItemDraft, hg, if_true]; rfl),
          draftPayloads_cons, ih]
        cases kind <;> simp [hg]
      · by_cases hl : itemKind item = "local_finding"
        · rw [List.filterMap_cons_some (by simp only [sessionItemDraft, hl, if_true]; rfl),
            draftPayloads_cons, ih]
          cases kind <;> simp [hl]
        · rw [List.filterMap_cons_none (by simp only [sessionItemDraft, hg, hl, if_false]), ih]
          cases kind <;> simp [hg, hl]

/-- Rows drafted one by one, all of one kind. -/
theorem draftPayloads_zipIdx (kind kind' : FactKind) (rows : List Dict)
    (draft : Dict → Nat → FactDraft) (payload : Dict → Nat → Dict)
    (hkind : ∀ row i, (draft row i).factKind = kind')
    (hpayload : ∀ row i, (draft row i).payload = payload row i) :
    draftPayloads kind (rows.zipIdx.map fun (row, i) => draft row i) =
      if kind' = kind then rows.zipIdx.map fun (row, i) => payload row i else [] := by
  generalize rows.zipIdx = indexed
  induction indexed with
  | nil => simp
  | cons row indexed ih =>
      rw [List.map_cons, draftPayloads_cons, ih]
      by_cases h : kind' = kind <;> simp [hkind, hpayload, h]

theorem map_zipIdx (rows : List Dict) (f : Dict → Dict) :
    (rows.zipIdx.map fun (row, _) => f row) = rows.map f := by
  conv_rhs => rw [← List.zipIdx_map_fst 0 rows, List.map_map]
  rfl

/-- The rows the gate reads of each kind. -/
theorem payloadsOf_buildFinalGateFacts (b : EvidenceBundle) (kind : FactKind) :
    payloadsOf kind (buildFinalGateFacts b) =
      match kind with
      | .reviewThreadObserved =>
          b.githubItems.map (sessionItemPayload b.currentLogin) ++ b.remoteThreadRows
      | .localItemObserved => b.localItems.map (sessionItemPayload b.currentLogin)
      | .pendingReviewObserved => b.pendingReviews.map (withCurrentLogin · b.currentLogin)
      | .checkRunObserved => b.checkRuns.map (checkRunPayload b.checkRequirement)
      | .logicValidationObserved => b.logicValidationSignals := by
  rw [buildFinalGateFacts, payloadsOf_appendFacts, finalGateDrafts]
  simp only [draftPayloads_append, draftPayloads_sessionItems]
  rw [draftPayloads_zipIdx kind .reviewThreadObserved b.remoteThreads remoteThreadDraft
      remoteThreadPayload (fun _ _ => rfl) fun _ _ => rfl,
    draftPayloads_zipIdx kind .pendingReviewObserved b.pendingReviews
      (pendingReviewDraft b.currentLogin) (fun r _ => withCurrentLogin r b.currentLogin)
      (fun _ _ => rfl) fun _ _ => rfl,
    draftPayloads_zipIdx kind .checkRunObserved b.checkRuns (checkRunDraft b.checkRequirement)
      (fun c _ => checkRunPayload b.checkRequirement c) (fun _ _ => rfl) fun _ _ => rfl,
    draftPayloads_zipIdx kind .logicValidationObserved b.logicValidationSignals logicSignalDraft
      (fun s _ => s) (fun _ _ => rfl) fun _ _ => rfl]
  have hreviews := map_zipIdx b.pendingReviews (withCurrentLogin · b.currentLogin)
  have hchecks := map_zipIdx b.checkRuns (checkRunPayload b.checkRequirement)
  have hsignals := map_zipIdx b.logicValidationSignals id
  cases kind <;> simp_all [EvidenceBundle.githubItems, EvidenceBundle.localItems,
    EvidenceBundle.remoteThreadRows]

theorem get_withCurrentLogin (d : Dict) (login : Option String) {key : String}
    (h : "current_login" ≠ key) : (withCurrentLogin d login).get key = d.get key := by
  unfold withCurrentLogin
  split
  · exact d.get_setDefault_of_ne _ h
  · rfl

theorem has_withCurrentLogin (d : Dict) (login : Option String) {key : String}
    (h : "current_login" ≠ key) : (withCurrentLogin d login).has key = d.has key := by
  unfold withCurrentLogin
  split
  · exact d.has_setDefault_of_ne _ h
  · rfl

theorem get_sessionItemPayload (item : Dict) (login : Option String) {key : String}
    (h : "current_login" ≠ key) (h' : "source_scope" ≠ key) :
    (sessionItemPayload login item).get key = item.get key := by
  rw [sessionItemPayload, get_withCurrentLogin _ _ h, Dict.get_set, if_neg h']

theorem has_sessionItemPayload (item : Dict) (login : Option String) {key : String}
    (h : "current_login" ≠ key) (h' : "source_scope" ≠ key) :
    (sessionItemPayload login item).has key = item.has key := by
  rw [sessionItemPayload, has_withCurrentLogin _ _ h, Dict.has_set, decide_eq_false h',
    Bool.false_or]

theorem normalizedThreadState_congr {d d' : Dict} (hstate : d.get "state" = d'.get "state")
    (hstatus : d.get "status" = d'.get "status") :
    normalizedThreadState d = normalizedThreadState d' := by
  unfold normalizedThreadState Dict.textOr
  rw [hstate, hstatus]

section SessionItems

variable (login : Option String) (item : Dict)

@[simp] theorem itemKind_sessionItemPayload :
    itemKind (sessionItemPayload login item) = itemKind item := by
  simp [itemKind, get_sessionItemPayload]

@[simp] theorem isRemoteThreadPayload_sessionItemPayload :
    isRemoteThreadPayload (sessionItemPayload login item) = false := by
  rw [isRemoteThreadPayload, sessionItemPayload, get_withCurrentLogin _ _ (by decide)]
  simp

@[simp] theorem isLocalBlocking_sessionItemPayload :
    isLocalBlocking (sessionItemPayload login item) = isLocalBlocking item := by
  simp [isLocalBlocking, itemState, get_sessionItemPayload, has_sessionItemPayload]

@[simp] theorem isBlockingItem_sessionItemPayload :
    isBlockingItem (sessionItemPayload login item) = isBlockingItem item := by
  simp [isBlockingItem, get_sessionItemPayload]

@[simp] theorem isTerminalLocalItem_sessionItemPayload :
    isTerminalLocalItem (sessionItemPayload login item) = isTerminalLocalItem item := by
  simp [isTerminalLocalItem, itemState, get_sessionItemPayload]

@[simp] theorem hasValidationEvidence_sessionItemPayload :
    hasValidationEvidence (sessionItemPayload login item) = hasValidationEvidence item := by
  simp [hasValidationEvidence, hasValidationSuccess, hasResolutionNote, Dict.textOr,
    get_sessionItemPayload]

@[simp] theorem hasReplyEvidence_sessionItemPayload (currentLogin : Option String) :
    hasReplyEvidence (sessionItemPayload login item) currentLogin =
      hasReplyEvidence item currentLogin := by
  simp [hasReplyEvidence, get_sessionItemPayload, has_sessionItemPayload]

@[simp] theorem threadIdentifier_sessionItemPayload :
    threadIdentifier (sessionItemPayload login item) = threadIdentifier item := by
  simp [threadIdentifier, List.findSome?_cons, get_sessionItemPayload]

@[simp] theorem isTerminalGithubThread_sessionItemPayload :
    isTerminalGithubThread (sessionItemPayload login item) = isTerminalGithubThread item := by
  rw [isTerminalGithubThread, isTerminalGithubThread,
    normalizedThreadState_congr (get_sessionItemPayload item login (by decide) (by decide))
      (get_sessionItemPayload item login (by decide) (by decide))]

@[simp] theorem hasRuntimeReplyExpectation_sessionItemPayload :
    hasRuntimeReplyExpectation (sessionItemPayload login item) =
      hasRuntimeReplyExpectation item := by
  simp [hasRuntimeReplyExpectation, get_sessionItemPayload]

end SessionItems

theorem isCurrentLoginPendingReview_withCurrentLogin (review : Dict)
    (login currentLogin : Option String) :
    isCurrentLoginPendingReview (withCurrentLogin review login) currentLogin =
      isCurrentLoginPendingReview review currentLogin := by
  simp [isCurrentLoginPendingReview, isPendingReview, reviewLogin, Dict.textOr,
    get_withCurrentLogin]

@[simp] theorem checkBucket_checkRunPayload (requirement : Option String) (check : Dict) :
    checkBucket (checkRunPayload requirement check) = checkBucket check := by
  unfold checkRunPayload
  split
  · simp [checkBucket, Dict.textOr, Dict.get_setDefault_of_ne]
  · rfl

theorem remoteThreadId_ne_empty (thread : Dict) (i : Nat) : remoteThreadId thread i ≠ "" := by
  unfold remoteThreadId
  cases h : (threadIdentifier thread).filter (· ≠ "") with
  | some id =>
      have hid := (Option.filter_eq_some_iff.mp h).2
      simpa using hid
  | none =>
      intro hempty
      have := congrArg String.length hempty
      simp at this

@[simp] theorem threadIdentifier_remoteThreadPayload (thread : Dict) (i : Nat) :
    threadIdentifier (remoteThreadPayload thread i) = some (remoteThreadId thread i) := by
  have hget : (remoteThreadPayload thread i).get "thread_id" =
      .str (remoteThreadId thread i) := by simp [remoteThreadPayload]
  simp [threadIdentifier, hget, remoteThreadId_ne_empty]

@[simp] theorem threadIsResolved_remoteThreadPayload (thread : Dict) (i : Nat) :
    threadIsResolved (remoteThreadPayload thread i) = threadIsResolved thread := by
  have hstate : normalizedThreadState (remoteThreadPayload thread i) =
      normalizedThreadState thread :=
    normalizedThreadState_congr (by simp [remoteThreadPayload]) (by simp [remoteThreadPayload])
  rw [threadIsResolved, threadIsResolved, isResolvedGithubThread, isResolvedGithubThread,
    isTerminalGithubThread, isTerminalGithubThread, hstate]
  simp [remoteThreadPayload]

@[simp] theorem isRemoteThreadPayload_remoteThreadPayload (thread : Dict) (i : Nat) :
    isRemoteThreadPayload (remoteThreadPayload thread i) = true := by
  simp [isRemoteThreadPayload, remoteThreadPayload]

namespace EvidenceBundle

variable (b : EvidenceBundle)

/-- The remote thread is listed under this identifier. -/
def Lists (threadId : String) (thread : Dict) : Prop :=
  ∃ i, b.remoteThreads[i]? = some thread ∧ remoteThreadId thread i = threadId

/-- The item's remote thread is listed, and resolved. -/
def ResolvedRemotely (item : Dict) : Prop :=
  ∃ threadId thread, threadIdentifier item = some threadId ∧ b.Lists threadId thread ∧
    threadIsResolved thread

/-- The item's remote thread is not listed. -/
def Unlisted (item : Dict) : Prop :=
  ∀ threadId thread, threadIdentifier item = some threadId → ¬ b.Lists threadId thread

def RequiresReply (item : Dict) : Prop :=
  b.ResolvedRemotely item ∨ b.Unlisted item ∧ isTerminalGithubThread item

/-- A closed item known only from a resolved remote thread, to which no reply was due. -/
def IsHistorical (item : Dict) : Prop :=
  (item.get "historical_remote_only").truthy ∧ b.ResolvedRemotely item ∧
    isTerminalGithubThread item ∧ ¬ hasRuntimeReplyExpectation item

/-- A pending review of the current login; of anyone, where no login is given. -/
def PendingForLogin (review : Dict) : Prop :=
  isPendingReview review ∧
    (given? b.currentLogin = none ∨ reviewLogin review = given? b.currentLogin)

/-- A pending review whose author may be the current login, since one of the two is not
given. -/
def PendingForLoginOrUnsigned (review : Dict) : Prop :=
  isPendingReview review ∧ (given? b.currentLogin = none ∨ reviewLogin review = none ∨
    reviewLogin review = given? b.currentLogin)

/-- Checks are required by the caller or by a check row. -/
def ChecksRequired : Prop :=
  (given? b.checkRequirement).isSome ∨
    ∃ check ∈ b.checkRuns, check.get "check_requirement" ≠ .null ∧
      (check.get "check_requirement").text ≠ ""

end EvidenceBundle

/-- Evidence that leaves nothing open: `belongs` says which reviews are the current login's,
`validated` which local items carry validation evidence. -/
structure GateClear (b : EvidenceBundle) (belongs validated : Dict → Prop) : Prop where
  threads : ∀ thread ∈ b.remoteThreads, threadIsResolved thread
  reviews : ∀ review ∈ b.pendingReviews, ¬ belongs review
  githubItems : ∀ item ∈ b.githubItems, ¬ isBlockingItem item
  replies : ∀ item ∈ b.githubItems, b.RequiresReply item →
    hasReplyEvidence item b.currentLogin ∨ b.IsHistorical item
  localItems : ∀ item ∈ b.localItems, ¬ isLocalBlocking item
  validation : ∀ item ∈ b.localItems, isTerminalLocalItem item → validated item
  signals : ∀ signal ∈ b.logicValidationSignals, signal.get "gate_effect" ≠ .str "blocking"
  checks : b.ChecksRequired → b.checkRuns ≠ [] ∧
    ∀ check ∈ b.checkRuns, checkBucket check = .pass ∨ checkBucket check = .skipping

theorem mem_remoteThreadRows {b : EvidenceBundle} {row : Dict} :
    row ∈ b.remoteThreadRows ↔
      ∃ i thread, b.remoteThreads[i]? = some thread ∧ remoteThreadPayload thread i = row := by
  simp only [EvidenceBundle.remoteThreadRows, List.mem_map, Prod.exists]
  constructor
  · rintro ⟨thread, i, hmem, rfl⟩
    exact ⟨i, thread, List.mem_zipIdx_iff_getElem?.mp hmem, rfl⟩
  · rintro ⟨i, thread, hget, rfl⟩
    exact ⟨thread, i, List.mem_zipIdx_iff_getElem?.mpr hget, rfl⟩

/-- A lookup by identifier finds a listed thread. -/
theorem lists_of_remoteById {b : EvidenceBundle} {threadId : Option String} {row : Dict}
    (h : remoteById b.remoteThreadRows threadId = some row) :
    ∃ id thread, threadId = some id ∧ b.Lists id thread ∧
      threadIsResolved row = threadIsResolved thread := by
  cases threadId with
  | none => simp [remoteById] at h
  | some id =>
      simp only [remoteById, Option.bind_some] at h
      split_ifs at h with hempty
      have hid := List.find?_some h
      have hmem := List.mem_reverse.mp (List.mem_of_find?_eq_some h)
      obtain ⟨i, thread, hget, rfl⟩ := mem_remoteThreadRows.mp hmem
      refine ⟨id, thread, rfl, ⟨i, hget, ?_⟩, by simp⟩
      simpa using hid

/-- A listed thread is found by its identifier. -/
theorem remoteById_isSome {b : EvidenceBundle} {id : String} {thread : Dict}
    (h : b.Lists id thread) : (remoteById b.remoteThreadRows (some id)).isSome := by
  obtain ⟨i, hget, rfl⟩ := h
  rw [remoteById, Option.bind_some, if_neg (remoteThreadId_ne_empty thread i),
    List.find?_isSome]
  exact ⟨remoteThreadPayload thread i,
    List.mem_reverse.mpr (mem_remoteThreadRows.mpr ⟨i, thread, hget, rfl⟩), by simp⟩

theorem remoteById_eq_none_iff {b : EvidenceBundle} {item : Dict} :
    remoteById b.remoteThreadRows (threadIdentifier item) = none ↔ b.Unlisted item := by
  constructor
  · intro h id thread hid hlists
    have hsome := remoteById_isSome hlists
    rw [← hid, h] at hsome
    exact Bool.false_ne_true hsome
  · intro h
    by_contra hne
    obtain ⟨row, hrow⟩ := Option.ne_none_iff_exists'.mp hne
    obtain ⟨id, thread, hid, hlists, -⟩ := lists_of_remoteById hrow
    exact h id thread hid hlists

/-- Where every remote thread is resolved, a reply is required exactly as specified. -/
theorem requiresReply_iff {b : EvidenceBundle} {item : Dict}
    (hthreads : ∀ thread ∈ b.remoteThreads, threadIsResolved thread) :
    githubThreadRequiresReplyEvidence item b.remoteThreadRows ↔ b.RequiresReply item := by
  unfold githubThreadRequiresReplyEvidence
  cases h : remoteById b.remoteThreadRows (threadIdentifier item) with
  | none =>
      have hun := remoteById_eq_none_iff.mp h
      have hnot : ¬ b.ResolvedRemotely item :=
        fun ⟨id, thread, hid, hlists, _⟩ => hun id thread hid hlists
      simp [EvidenceBundle.RequiresReply, hun, hnot]
  | some row =>
      obtain ⟨id, thread, hid, hlists, hres⟩ := lists_of_remoteById h
      obtain ⟨i, hget, hname⟩ := hlists
      have hresolved : threadIsResolved thread := hthreads thread (List.mem_of_getElem? hget)
      have hspec : b.RequiresReply item :=
        .inl ⟨id, thread, hid, ⟨i, hget, hname⟩, hresolved⟩
      simp [hres, hresolved, hspec]

/-- The same for the historical items. -/
theorem isHistorical_iff {b : EvidenceBundle} {item : Dict}
    (hthreads : ∀ thread ∈ b.remoteThreads, threadIsResolved thread) :
    isNonBlockingHistoricalReplyGap item
      (remoteById b.remoteThreadRows (threadIdentifier item)) ↔ b.IsHistorical item := by
  have hany : (remoteById b.remoteThreadRows (threadIdentifier item)).any threadIsResolved ↔
      b.ResolvedRemotely item := by
    cases h : remoteById b.remoteThreadRows (threadIdentifier item) with
    | none =>
        have hun := remoteById_eq_none_iff.mp h
        have hnot : ¬ b.ResolvedRemotely item :=
          fun ⟨id, thread, hid, hlists, _⟩ => hun id thread hid hlists
        simp [hnot]
    | some row =>
        obtain ⟨id, thread, hid, ⟨i, hget, hname⟩, hres⟩ := lists_of_remoteById h
        have hresolved : threadIsResolved thread := hthreads thread (List.mem_of_getElem? hget)
        have hspec : b.ResolvedRemotely item :=
          ⟨id, thread, hid, ⟨i, hget, hname⟩, hresolved⟩
        simp [hres, hresolved, hspec]
  unfold isNonBlockingHistoricalReplyGap EvidenceBundle.IsHistorical
  rw [Bool.and_eq_true, Bool.and_eq_true, Bool.and_eq_true, hany, Bool.not_eq_true',
    Bool.not_eq_true, and_assoc, and_assoc]

/-- The check row asks for checks itself. -/
def NamesCheckRequirement (check : Dict) : Prop :=
  check.get "check_requirement" ≠ .null ∧ (check.get "check_requirement").text ≠ ""

theorem given?_eq_some {text : Option String} {t : String} :
    given? text = some t ↔ text = some t ∧ t ≠ "" := by
  simp [given?, Option.filter_eq_some_iff]

theorem mergedCheckRequirement_given (requirement : Option String) (rows : List Dict) :
    (given? (mergedCheckRequirement requirement rows)).isSome ↔
      (given? requirement).isSome ∨ ∃ check ∈ rows, NamesCheckRequirement check := by
  induction rows generalizing requirement with
  | nil => simp [mergedCheckRequirement]
  | cons check rows ih =>
      rw [mergedCheckRequirement, List.foldl_cons]
      change (given? (mergedCheckRequirement _ rows)).isSome ↔ _
      rw [ih]
      cases h : given? requirement with
      | some t =>
          have ht : given? (some t) = some t := given?_eq_some.mpr ⟨rfl, (given?_eq_some.mp h).2⟩
          simp [ht]
      | none =>
          have hempty : given? none = none := rfl
          by_cases hown : check.get "check_requirement" = .null ∨
              (check.get "check_requirement").text = ""
          · have hnot : ¬ NamesCheckRequirement check := fun hn => hown.elim hn.1 hn.2
            simp [hown, hnot, hempty]
          · have hnames : NamesCheckRequirement check := not_or.mp hown
            have ht : given? (some (check.get "check_requirement").text) =
                some (check.get "check_requirement").text := given?_eq_some.mpr ⟨rfl, hnames.2⟩
            simp only [hown, if_false, ht, Option.isSome_some, true_or, List.mem_cons,
              exists_eq_or_imp, hnames, or_true]

theorem mergedCheckRequirement_checkRuns (b : EvidenceBundle) :
    (given? (mergedCheckRequirement b.checkRequirement
      (b.checkRuns.map (checkRunPayload b.checkRequirement)))).isSome ↔ b.ChecksRequired := by
  rw [mergedCheckRequirement_given]
  cases h : given? b.checkRequirement with
  | some t => simp [EvidenceBundle.ChecksRequired, h]
  | none =>
      have hsame : ∀ check, checkRunPayload b.checkRequirement check = check := by
        intro check
        rw [checkRunPayload, h]
      simp [hsame, EvidenceBundle.ChecksRequired, NamesCheckRequirement, h]

theorem logicValidationCodes_eq_nil_iff (blocking : List Dict) :
    logicValidationCodes blocking = [] ↔ blocking = [] := by
  constructor
  · intro h
    cases blocking with
    | nil => rfl
    | cons signal rest =>
        by_cases hstale : signalType signal = "stale_revision_evidence"
        · simp [logicValidationCodes, hstale] at h
        · by_cases hunbound : signalType signal = "unbound_revision_evidence"
          · simp [logicValidationCodes, hunbound] at h
          · simp [logicValidationCodes, hstale, hunbound] at h
  · rintro rfl
    rfl

/-- No failure code is reported exactly when each reported count is zero. -/
theorem failureCodes_eq_nil_iff (p : FinalGateProjection)
    (hsignals : p.counts.logicValidationBlocking = p.blockingLogicValidationSignals.length) :
    failureCodes p = [] ↔
      p.counts.unresolvedRemoteThreads = 0 ∧ p.counts.githubThreadsMissingReply = 0 ∧
      p.counts.pendingCurrentLoginReview = 0 ∧ p.counts.blockingGithubItems = 0 ∧
      p.counts.blockingLocalItems = 0 ∧ p.counts.missingValidationEvidence = 0 ∧
      p.counts.logicValidationBlocking = 0 ∧ p.counts.prChecksNotGreen = 0 ∧
      p.counts.prChecksMissing = 0 := by
  simp only [failureCodes, failureOrder, List.flatMap_cons, List.flatMap_nil,
    List.append_eq_nil_iff, reduceCtorEq, if_false, if_true, and_true,
    logicValidationCodes_eq_nil_iff, ite_eq_left_iff, List.cons_ne_nil, imp_false, not_not]
  have hblocking : (¬ p.counts.logicValidationBlocking = 0 →
      p.blockingLogicValidationSignals = []) ↔ p.counts.logicValidationBlocking = 0 := by
    rw [hsignals, List.length_eq_zero_iff]
    exact ⟨fun h => by_contra fun hne => hne (h hne), fun h hne => absurd h hne⟩
  rw [hblocking]

theorem finalGatePassed_eq (b : EvidenceBundle) :
    finalGatePassed b = .ok
      (failureCodes (projectSortedFacts (buildFinalGateFacts b) b.currentLogin
        b.checkRequirement)).isEmpty := by
  rw [finalGatePassed, projectFinalGate, buildFinalGateFacts, sortRuntimeFacts_appendFacts]
  rfl

theorem filter_isRemoteThreadPayload (b : EvidenceBundle) :
    ((b.githubItems.map (sessionItemPayload b.currentLogin)) ++ b.remoteThreadRows).filter
      isRemoteThreadPayload = b.remoteThreadRows := by
  rw [List.filter_append, List.filter_eq_nil_iff.mpr, List.nil_append, List.filter_eq_self]
  · intro row hrow
    obtain ⟨i, thread, -, rfl⟩ := mem_remoteThreadRows.mp hrow
    simp
  · intro row hrow
    obtain ⟨item, -, rfl⟩ := List.mem_map.mp hrow
    simp

theorem filter_githubThread (b : EvidenceBundle) :
    ((b.githubItems.map (sessionItemPayload b.currentLogin)) ++ b.remoteThreadRows).filter
      (fun payload => !isRemoteThreadPayload payload && itemKind payload == "github_thread") =
      b.githubItems.map (sessionItemPayload b.currentLogin) := by
  rw [List.filter_append, List.filter_eq_self.mpr, List.filter_eq_nil_iff.mpr, List.append_nil]
  · intro row hrow
    obtain ⟨i, thread, -, rfl⟩ := mem_remoteThreadRows.mp hrow
    simp
  · intro row hrow
    obtain ⟨item, hitem, rfl⟩ := List.mem_map.mp hrow
    have hkind : itemKind item = "github_thread" := by
      simpa using (List.mem_filter.mp hitem).2
    simp [hkind]

theorem isCurrentLoginPendingReview_iff (b : EvidenceBundle) (review : Dict) :
    isCurrentLoginPendingReview review b.currentLogin ↔ b.PendingForLogin review := by
  unfold isCurrentLoginPendingReview EvidenceBundle.PendingForLogin
  cases given? b.currentLogin <;> simp

/-- A check row counts as red exactly when it is neither passing nor skipping. -/
theorem isFailedCheck_or_isPendingCheck (check : Dict) :
    ¬ isFailedCheck check ∧ ¬ isPendingCheck check ↔
      checkBucket check = .pass ∨ checkBucket check = .skipping := by
  unfold isFailedCheck isPendingCheck
  cases checkBucket check <;> decide

theorem replyEvidenceDetail_recoverability (rows : List Dict) (item : Dict) :
    (replyEvidenceDetail rows item).recoverability ≠ "non_blocking" ↔
      ¬ isNonBlockingHistoricalReplyGap item (remoteById rows (threadIdentifier item)) := by
  unfold replyEvidenceDetail
  dsimp only
  split_ifs with h <;> simp [h]

/-- No item misses a reply exactly when each that requires one has it or is historical. -/
theorem missingReply_eq_nil_iff (b : EvidenceBundle)
    (hthreads : ∀ thread ∈ b.remoteThreads, threadIsResolved thread) :
    ((replyEvidenceDetails (b.githubItems.map (sessionItemPayload b.currentLogin))
      b.remoteThreadRows b.currentLogin).filter (·.recoverability ≠ "non_blocking")) = [] ↔
      ∀ item ∈ b.githubItems, b.RequiresReply item →
        hasReplyEvidence item b.currentLogin ∨ b.IsHistorical item := by
  have hpayload : ∀ item,
      githubThreadRequiresReplyEvidence (sessionItemPayload b.currentLogin item)
        b.remoteThreadRows = githubThreadRequiresReplyEvidence item b.remoteThreadRows := by
    intro item
    simp [githubThreadRequiresReplyEvidence]
  have hgap : ∀ item remote,
      isNonBlockingHistoricalReplyGap (sessionItemPayload b.currentLogin item) remote =
        isNonBlockingHistoricalReplyGap item remote := by
    intro item remote
    simp [isNonBlockingHistoricalReplyGap, get_sessionItemPayload]
  have hrow : ∀ item, ¬ (decide ((replyEvidenceDetail b.remoteThreadRows
      (sessionItemPayload b.currentLogin item)).recoverability ≠ "non_blocking") = true ∧
      githubThreadRequiresReplyEvidence (sessionItemPayload b.currentLogin item)
        b.remoteThreadRows = true ∧
      hasReplyEvidence (sessionItemPayload b.currentLogin item) b.currentLogin = false) ↔
      (b.RequiresReply item → hasReplyEvidence item b.currentLogin ∨ b.IsHistorical item) := by
    intro item
    rw [decide_eq_true_eq, replyEvidenceDetail_recoverability, hpayload, hgap,
      threadIdentifier_sessionItemPayload, isHistorical_iff hthreads, requiresReply_iff hthreads,
      hasReplyEvidence_sessionItemPayload]
    by_cases hreply : hasReplyEvidence item b.currentLogin
    · simp [hreply]
    · simp [hreply]
      tauto
  rw [replyEvidenceDetails, List.filter_map, List.map_eq_nil_iff, List.filter_filter,
    List.filter_eq_nil_iff, List.forall_mem_map]
  simpa only [Function.comp_apply, Bool.and_eq_true, Bool.not_eq_true'] using
    forall₂_congr fun item _ => hrow item

/-- No count is reported exactly when the rows of the bundle are clear, one by one. -/
theorem failureCodes_project_eq_nil_iff (b : EvidenceBundle) :
    failureCodes (projectSortedFacts (buildFinalGateFacts b) b.currentLogin b.checkRequirement) =
      [] ↔
      (∀ thread ∈ b.remoteThreads, threadIsResolved thread) ∧
      ((replyEvidenceDetails (b.githubItems.map (sessionItemPayload b.currentLogin))
        b.remoteThreadRows b.currentLogin).filter (·.recoverability ≠ "non_blocking")) = [] ∧
      (∀ review ∈ b.pendingReviews, ¬ b.PendingForLogin review) ∧
      (∀ item ∈ b.githubItems, ¬ isBlockingItem item) ∧
      (∀ item ∈ b.localItems, ¬ isLocalBlocking item) ∧
      (∀ item ∈ b.localItems, isTerminalLocalItem item → hasValidationEvidence item) ∧
      (∀ signal ∈ b.logicValidationSignals, signal.get "gate_effect" ≠ .str "blocking") ∧
      (b.ChecksRequired →
        ∀ check ∈ b.checkRuns, checkBucket check = .pass ∨ checkBucket check = .skipping) ∧
      (b.ChecksRequired → b.checkRuns ≠ []) := by
  have hthreads : ((b.remoteThreadRows.filter (!threadIsResolved ·)).length = 0) ↔
      ∀ thread ∈ b.remoteThreads, threadIsResolved thread := by
    rw [List.length_eq_zero_iff, List.filter_eq_nil_iff]
    constructor
    · intro h thread hmem
      obtain ⟨i, hget⟩ := List.mem_iff_getElem?.mp hmem
      simpa using h _ (mem_remoteThreadRows.mpr ⟨i, thread, hget, rfl⟩)
    · intro h row hrow
      obtain ⟨i, thread, hget, rfl⟩ := mem_remoteThreadRows.mp hrow
      simpa using h thread (List.mem_of_getElem? hget)
  have hchecks := isFailedCheck_or_isPendingCheck
  rw [failureCodes_eq_nil_iff _ rfl]
  simp only [projectSortedFacts, payloadsOf_buildFinalGateFacts, filter_isRemoteThreadPayload,
    filter_githubThread, hthreads]
  refine and_congr_right fun _ => ?_
  refine and_congr List.length_eq_zero_iff ?_
  refine and_congr ?_ (and_congr ?_ (and_congr ?_ (and_congr ?_ (and_congr ?_ (and_congr ?_ ?_)))))
  · simp only [List.length_eq_zero_iff, List.filter_eq_nil_iff, List.forall_mem_map,
      isCurrentLoginPendingReview_withCurrentLogin, ← isCurrentLoginPendingReview_iff]
  · simp
  · simp
  · simp
  · simp
  · have hrequired := mergedCheckRequirement_checkRuns b
    by_cases h : b.ChecksRequired
    · simp only [hrequired.mpr h, if_true, Nat.add_eq_zero_iff, List.length_eq_zero_iff,
        List.filter_eq_nil_iff, List.forall_mem_map, h, true_imp_iff, ← hchecks]
      simp only [isFailedCheck, isPendingCheck, checkBucket_checkRunPayload, forall_and]
    · simp [h, Bool.eq_false_iff.mpr (mt hrequired.mp h)]
  · have hrequired := mergedCheckRequirement_checkRuns b
    by_cases h : b.ChecksRequired
    · simp [h, hrequired.mpr h]
    · simp [h, Bool.eq_false_iff.mpr (mt hrequired.mp h)]

/-- The gate passes exactly when the evidence is clear. -/
theorem finalGatePassed_iff (b : EvidenceBundle) :
    finalGatePassed b = .ok true ↔
      GateClear b b.PendingForLogin fun item => hasValidationEvidence item := by
  rw [finalGatePassed_eq, Except.ok.injEq, List.isEmpty_iff, failureCodes_project_eq_nil_iff]
  constructor
  · rintro ⟨threads, replies, reviews, github, localItems, validation, signals, green, some⟩
    exact
      { threads, reviews, githubItems := github
        replies := (missingReply_eq_nil_iff b threads).mp replies
        localItems, validation, signals
        checks := fun h => ⟨some h, green h⟩ }
  · intro h
    exact ⟨h.threads, (missingReply_eq_nil_iff b h.threads).mpr h.replies, h.reviews,
      h.githubItems, h.localItems, h.validation, h.signals, fun hr => (h.checks hr).2,
      fun hr => (h.checks hr).1⟩

def emptyBundle : EvidenceBundle := ⟨[], [], [], none, [], none, []⟩

/-- A pending review that names no author, seen by a known login. -/
def unsignedReviewBundle : EvidenceBundle :=
  { emptyBundle with
    currentLogin := some "agent", pendingReviews := [Dict.ofFields [("state", .str "PENDING")]] }

/-- A local finding closed by a decision with a note, without validation records. -/
def resolutionNoteBundle : EvidenceBundle :=
  { emptyBundle with
    items := [Dict.ofFields
      [("item_kind", .str "local_finding"), ("item_id", .str "f"), ("state", .str "closed"),
        ("decision", .str "accept"), ("resolution_note", .str "not a defect")]] }

theorem unsignedReviewBundle_passes : finalGatePassed unsignedReviewBundle = .ok true := by
  rw [finalGatePassed_eq]
  decide

theorem resolutionNoteBundle_passes : finalGatePassed resolutionNoteBundle = .ok true := by
  rw [finalGatePassed_eq]
  decide

/-- The gate passes over a pending review without an author, and over a terminal local item
closed with a note instead of validation records. -/
theorem finalGate_passes_unsigned_and_noted :
    (¬ ∀ b, finalGatePassed b = .ok true ↔
      GateClear b b.PendingForLoginOrUnsigned fun item => hasValidationSuccess item) ∧
    (¬ ∀ b, finalGatePassed b = .ok true ↔
      GateClear b b.PendingForLoginOrUnsigned fun item => hasValidationEvidence item) ∧
    ¬ ∀ b, finalGatePassed b = .ok true ↔
      GateClear b b.PendingForLogin fun item => hasValidationSuccess item := by
  have hunsigned : ∀ validated, ¬ GateClear unsignedReviewBundle
      unsignedReviewBundle.PendingForLoginOrUnsigned validated := by
    intro validated h
    exact h.reviews _ (List.mem_singleton.mpr rfl) ⟨by decide, .inr (.inl (by decide))⟩
  refine ⟨fun h => ?_, fun h => ?_, fun h => ?_⟩
  · exact hunsigned _ ((h _).mp unsignedReviewBundle_passes)
  · exact hunsigned _ ((h _).mp unsignedReviewBundle_passes)
  · have hclear := (h _).mp resolutionNoteBundle_passes
    exact absurd (hclear.validation _ (List.mem_singleton.mpr rfl) (by decide)) (by decide)

end GhAddressCr
