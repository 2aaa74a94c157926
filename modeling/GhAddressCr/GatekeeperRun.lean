import GhAddressCr.LogicValidation
import GhAddressCr.ThreadMerge

/-!
# A run of the gatekeeper

The gatekeeper reads what GitHub shows of a pull request, merges the threads into the session, and
evaluates the final gate on the merged session, which it saves.
-/
namespace GhAddressCr

/-- The session as the mapping that the gate reads. -/
def Session.document (session : Session) : Dict :=
  session.root.set "items" (.dict (session.items.toList.map fun row => (row.1, row.2.toValue)))

namespace Gatekeeper

open LogicValidation PyText GithubThreadState

/-- The outcomes of the reads of a run, each on its own. -/
structure GateReads (ε : Type) where
  /-- The stack facts, where they were read and could be serialized. -/
  stackContext : Option Dict
  viewerLogin : Except ε String
  threads : Except ε (List Dict)
  pendingReviews : Except ε (List Dict)
  /-- Nothing stands for a `GitHubNoChecksError`. -/
  checkRuns : Except ε (Option (List Dict))

def checkRequirement (requireChecks requireRequiredChecks : Bool) : Option String :=
  if requireRequiredChecks then some "required" else if requireChecks then some "all" else none

/-- The counts that the session keeps as metrics. -/
def gateMetrics (counts : FinalGateCounts) : Dict :=
  Dict.ofFields
    [("blocking_items_count", .int counts.blockingItems),
      ("unresolved_github_threads_count", .int counts.unresolvedGithubThreads),
      ("github_threads_missing_reply_count", .int counts.githubThreadsMissingReply),
      ("pending_current_login_review_count", .int counts.pendingCurrentLoginReview),
      ("pr_checks_failed_count", .int counts.prChecksFailed),
      ("pr_checks_pending_count", .int counts.prChecksPending)]

/-- The merged session with its metrics; `none` where they are no mapping. -/
def withMetrics (session : Session) (counts : FinalGateCounts) : Option Session :=
  ((session.root.get "metrics").orElse (.dict [])).toMapping?.map fun metrics =>
    { session with
      root := session.root.set "metrics" (metrics.update (gateMetrics counts)).toValue }

variable {ε : Type}

/-- The session before its threads are merged. -/
def observed (reads : GateReads ε) (session : Session) : Session :=
  match reads.stackContext with
  | some stackContext => cachePullRequestContext session stackContext
  | none => session

/-- What the gate says of the merged session, and that session as it is saved. -/
def judge (merged : Session) (observations : Observations) :
    Option (Except String (LogicValidation.GateResult × Session)) := do
  match ← evaluateFinalGate merged.document observations with
  | .error text => pure (.error text)
  | .ok result => (withMetrics merged result.counts).map fun saved => .ok (result, saved)

/-- The check rows, where checks are required. -/
def readChecks (reads : GateReads ε) (required : Bool) : Except ε (List Dict) :=
  if required then reads.checkRuns.map (·.getD []) else .ok []

/-- `Gatekeeper.run` on the session that it loads or creates. The outcomes of the reads are
looked at in the order in which they were once made. -/
def run (search : MarkerSearch) (reads : GateReads ε) (requireChecks requireRequiredChecks : Bool)
    (session : Session) :
    Except ε (Option (Except String (LogicValidation.GateResult × Session))) := do
  let currentLogin ← reads.viewerLogin
  let remoteThreads ← reads.threads
  let pendingReviews ← reads.pendingReviews
  let checkRuns ← readChecks reads (requireChecks || requireRequiredChecks)
  let merged := mergeThreads search (some currentLogin) remoteThreads (observed reads session)
  pure <| judge merged
    { remoteThreads, pendingReviews, checkRuns
      currentLogin := some currentLogin
      checkRequirement := checkRequirement requireChecks requireRequiredChecks }

theorem sessionItems_document (session : Session) :
    sessionItems session.document = some (session.items.toList.map (·.2)) := by
  have hitems : (session.document.get "items").orElse (.dict []) =
      .dict (session.items.toList.map fun row => (row.1, row.2.toValue)) := by
    rw [Session.document, Dict.get_set, if_pos rfl, Value.orElse]
    cases session.items.toList <;> simp [Value.truthy]
  unfold sessionItems
  rw [hitems]
  simp only [List.filterMap_map]
  congr 1
  cases session.items.toList with
  | nil => rfl
  | cons row rows => simp

section Merged

variable (search : MarkerSearch) (currentLogin : Option String) (thread : Dict)

/-- The keys that a merge writes once the thread is identified. -/
def reviewedKeys : List String :=
  (severityKeys ++ ["review_priority_evidence"]) ++ stateKeys ++ replyKeys

/-- Past its identity, a merge leaves the other keys alone. -/
theorem mergeThread_sameBut_identity (threadId : String) (item : Dict) :
    SameBut reviewedKeys (identifyThread thread threadId item)
      (mergeThread search currentLogin thread threadId item) := by
  have hseverity := (mergePriority_settles search thread).comp
    (mergeSeverity_settles search thread) (by decide) (by decide)
  have hstate := (determineMergedThreadState_settles thread).comp hseverity (by decide)
    (by decide)
  have hreply := (applyViewerReplyEvidence_settles currentLogin thread).comp hstate (by decide)
    (by decide)
  exact hreply.frame (identifyThread thread threadId item)

theorem threadIdentifier_mergeThread {threadId : String} (hid : threadId ≠ "") (item : Dict) :
    threadIdentifier (mergeThread search currentLogin thread threadId item) = some threadId := by
  have hget := (mergeThread_sameBut_identity search currentLogin thread threadId item).get
    (show "thread_id" ∉ reviewedKeys by decide)
  have hthread : (identifyThread thread threadId item).get "thread_id" = .str threadId := by
    simp [identifyThread, describeThread]
  simp [threadIdentifier, hget, hthread, hid]

theorem get_setDefault_self (d : Dict) (key : String) (value : Value) :
    (d.setDefault key value).get key = if d.has key then d.get key else value := by
  unfold Dict.setDefault
  split <;> simp

theorem itemKind_mergeThread (threadId : String) {item : Dict}
    (hkind : item = ∅ ∨ itemKind item = "github_thread") :
    itemKind (mergeThread search currentLogin thread threadId item) = "github_thread" := by
  have hsame := mergeThread_sameBut_identity search currentLogin thread threadId item
  have hmerged := hsame.get (show "item_kind" ∉ reviewedKeys by decide)
  have hmerged' := hsame.get (show "kind" ∉ reviewedKeys by decide)
  have hgiven : (identifyThread thread threadId item).get "item_kind" =
      if item.has "item_kind" then item.get "item_kind" else .str "github_thread" := by
    simp [identifyThread, describeThread, Dict.get_setDefault_of_ne, get_setDefault_self,
      Dict.has_setDefault_of_ne]
  have hother : (identifyThread thread threadId item).get "kind" = item.get "kind" := by
    simp [identifyThread, describeThread, Dict.get_setDefault_of_ne]
  unfold itemKind
  rw [hmerged, hmerged', hgiven, hother]
  split
  · next hhas =>
    obtain rfl | hkind := hkind
    · simp at hhas
    · exact hkind
  · rw [Value.orElse, if_pos (by decide)]
    decide

end Merged

/-- The items under the ids of threads are threads. -/
def FollowsThreads (items : Rows Dict) : Prop :=
  ∀ (threadId : String) (item : Dict),
    items["github-thread:" ++ threadId]? = some item → itemKind item = "github_thread"

/-- The item follows its thread. -/
structure Followed (items : Rows Dict) (threadId : String) (item : Dict) : Prop where
  row : items["github-thread:" ++ threadId]? = some item
  thread : threadIdentifier item = some threadId

section Rows

variable {search : MarkerSearch} {currentLogin : Option String} {items : Rows Dict}

theorem ne_empty_of_given {text : Option String} {given : String} (h : given? text = some given) :
    given ≠ "" := by
  have hgiven := (Option.filter_eq_some_iff.mp h).2
  simpa using hgiven

/-- What a round does to the item of a thread. -/
theorem mergeThreadRow_row (search : MarkerSearch) (currentLogin : Option String)
    (items : Rows Dict) (thread : Dict) (threadId : String) :
    (mergeThreadRow search currentLogin items thread)["github-thread:" ++ threadId]? =
      if given? (threadIdentifier thread) = some threadId then
        some (mergeThread search currentLogin thread threadId
          (items["github-thread:" ++ threadId]?.getD ∅))
      else items["github-thread:" ++ threadId]? := by
  rw [getElem?_mergeThreadRow]
  cases given? (threadIdentifier thread) with
  | none => simp
  | some otherId =>
      simp only [String.append_right_inj, Option.some.injEq]
      by_cases hsame : otherId = threadId
      · simp [hsame]
      · simp [hsame]

theorem followsThreads_mergeThreadRow (h : FollowsThreads items) (thread : Dict) :
    FollowsThreads (mergeThreadRow search currentLogin items thread) := by
  intro threadId item hitem
  rw [mergeThreadRow_row] at hitem
  split at hitem
  · rw [← Option.some.inj hitem]
    refine itemKind_mergeThread search currentLogin thread threadId ?_
    cases hrow : items["github-thread:" ++ threadId]? with
    | none => exact .inl rfl
    | some item => exact .inr (h threadId item hrow)
  · exact h threadId item hitem

/-- A round leaves the item of its own thread followed, and those of other threads. -/
theorem followed_mergeThreadRow (thread : Dict) {threadId : String}
    (h : given? (threadIdentifier thread) = some threadId ∨ ∃ item, Followed items threadId item) :
    ∃ item, Followed (mergeThreadRow search currentLogin items thread) threadId item := by
  have hrow := mergeThreadRow_row search currentLogin items thread threadId
  by_cases hid : given? (threadIdentifier thread) = some threadId
  · rw [if_pos hid] at hrow
    exact ⟨_, hrow, threadIdentifier_mergeThread search currentLogin thread
      (ne_empty_of_given hid) _⟩
  · rw [if_neg hid] at hrow
    obtain hthread | ⟨item, hitem⟩ := h
    · exact absurd hthread hid
    · exact ⟨item, hrow.trans hitem.row, hitem.thread⟩

theorem followsThreads_merged (h : FollowsThreads items) (threads : List Dict) :
    FollowsThreads (threads.foldl (mergeThreadRow search currentLogin) items) := by
  induction threads generalizing items with
  | nil => exact h
  | cons thread threads ih => exact ih (followsThreads_mergeThreadRow h thread)

/-- After the merge there is an item that follows each listed thread. -/
theorem followed_merged (search : MarkerSearch) (currentLogin : Option String)
    {items : Rows Dict} {threads : List Dict} {threadId : String}
    (h : (∃ thread ∈ threads, given? (threadIdentifier thread) = some threadId) ∨
      ∃ item, Followed items threadId item) :
    ∃ item, Followed (threads.foldl (mergeThreadRow search currentLogin) items) threadId item := by
  induction threads generalizing items with
  | nil =>
      obtain ⟨thread, hthread, -⟩ | h := h
      · cases hthread
      · exact h
  | cons first threads ih =>
      obtain ⟨thread, hthread, hid⟩ | h := h
      · obtain rfl | hrest := List.mem_cons.mp hthread
        · exact ih (.inr (followed_mergeThreadRow thread (.inl hid)))
        · exact ih (.inl ⟨thread, hrest, hid⟩)
      · exact ih (.inr (followed_mergeThreadRow first (.inr h)))

end Rows

section Run

variable {search : MarkerSearch} {ε : Type} {reads : GateReads ε}
  {requireChecks requireRequiredChecks : Bool} {session saved : Session}
  {result : LogicValidation.GateResult}

/-- What a run that ends with a result has read and judged. -/
structure Judged (search : MarkerSearch) (reads : GateReads ε)
    (requireChecks requireRequiredChecks : Bool) (session : Session) (login : String)
    (observations : Observations) (result : LogicValidation.GateResult) (saved : Session) :
    Prop where
  viewer : reads.viewerLogin = .ok login
  listed : reads.threads = .ok observations.remoteThreads
  pending : reads.pendingReviews = .ok observations.pendingReviews
  checked : readChecks reads (requireChecks || requireRequiredChecks) = .ok observations.checkRuns
  current : observations.currentLogin = some login
  required : observations.checkRequirement = checkRequirement requireChecks requireRequiredChecks
  verdict : evaluateFinalGate (mergeThreads search (some login) observations.remoteThreads
    (observed reads session)).document observations = some (.ok result)
  items : saved.items =
    observations.remoteThreads.foldl (mergeThreadRow search (some login)) session.items

theorem items_observed (reads : GateReads ε) (session : Session) :
    (observed reads session).items = session.items := by
  unfold observed
  split <;> rfl

theorem judge_ok {merged : Session} {observations : Observations}
    (h : judge merged observations = some (.ok (result, saved))) :
    evaluateFinalGate merged.document observations = some (.ok result) ∧
      saved.items = merged.items := by
  unfold judge at h
  cases hverdict : evaluateFinalGate merged.document observations with
  | none => simp [hverdict] at h
  | some verdict =>
      cases verdict with
      | error text => simp [hverdict] at h
      | ok found =>
          simp only [hverdict, Option.bind_eq_bind, Option.bind_some, Option.map_eq_some_iff,
            Except.ok.injEq, Prod.mk.injEq] at h
          obtain ⟨kept, hkept, rfl, rfl⟩ := h
          obtain ⟨metrics, -, rfl⟩ := Option.map_eq_some_iff.mp hkept
          exact ⟨rfl, rfl⟩

theorem run_judged (h : run search reads requireChecks requireRequiredChecks session =
    .ok (some (.ok (result, saved)))) : ∃ login observations,
      Judged search reads requireChecks requireRequiredChecks session login observations result
        saved := by
  unfold run at h
  cases hlogin : reads.viewerLogin with
  | error error => simp [hlogin, bind, Except.bind] at h
  | ok login =>
  cases hthreads : reads.threads with
  | error error => simp [hlogin, hthreads, bind, Except.bind] at h
  | ok threads =>
  cases hreviews : reads.pendingReviews with
  | error error => simp [hlogin, hthreads, hreviews, bind, Except.bind] at h
  | ok reviews =>
  cases hchecks : readChecks reads (requireChecks || requireRequiredChecks) with
  | error error => simp [hlogin, hthreads, hreviews, hchecks, bind, Except.bind] at h
  | ok checks =>
  simp only [hlogin, hthreads, hreviews, hchecks, bind, Except.bind, pure, Except.pure,
    Except.ok.injEq] at h
  obtain ⟨hverdict, hitems⟩ := judge_ok h
  exact ⟨login,
    { remoteThreads := threads, pendingReviews := reviews, checkRuns := checks
      currentLogin := some login
      checkRequirement := checkRequirement requireChecks requireRequiredChecks },
    { viewer := hlogin, listed := hthreads, pending := hreviews, checked := hchecks
      current := rfl, required := rfl, verdict := hverdict
      items := by rw [hitems, mergeThreads, items_observed] }⟩

section Clear

variable {login : String} {observations : Observations}

/-- The rows that the gate reads of the merged session. -/
def mergedItems (search : MarkerSearch) (login : String) (observations : Observations)
    (session : Session) : List Dict :=
  (observations.remoteThreads.foldl (mergeThreadRow search (some login))
    session.items).toList.map (·.2)

theorem Judged.clear
    (h : Judged search reads requireChecks requireRequiredChecks session login observations result
      saved) (hpassed : result.passed) :
    observations.Clear (mergedItems search login observations session) [] := by
  obtain ⟨items, context, hitems, -, hclear, -⟩ :=
    (passes_iff _ observations).mp ⟨result, h.verdict, hpassed⟩
  rw [sessionItems_document, Option.some.injEq, mergeThreads, items_observed] at hitems
  rw [mergedItems, hitems]
  exact hclear

theorem remoteThreadId_of_given {thread : Dict} {threadId : String}
    (hid : given? (threadIdentifier thread) = some threadId) (index : Nat) :
    remoteThreadId thread index = threadId := by
  unfold remoteThreadId
  rw [show (threadIdentifier thread).filter (· ≠ "") = some threadId from hid, Option.getD_some]

/-- With clear evidence, an item that follows a listed thread was answered. -/
theorem answered_of_clear (hcurrent : observations.currentLogin = some login) {items : List Dict}
    (hclear : observations.Clear items []) {thread item : Dict} {threadId : String}
    (hthread : thread ∈ observations.remoteThreads)
    (hid : given? (threadIdentifier thread) = some threadId) (hitem : item ∈ items)
    (hkind : itemKind item = "github_thread") (hfollows : threadIdentifier item = some threadId) :
    ¬ isBlockingItem item ∧ (hasReplyEvidence item (some login) ∨
      (item.get "historical_remote_only").truthy ∧ ¬ hasRuntimeReplyExpectation item) := by
  have hgithub : item ∈ (observations.bundle items []).githubItems :=
    List.mem_filter.mpr ⟨hitem, decide_eq_true hkind⟩
  have hresolved := hclear.threads thread hthread
  have hlisted : (observations.bundle items []).Lists threadId thread := by
    obtain ⟨i, hi⟩ := List.mem_iff_getElem?.mp hthread
    exact ⟨i, hi, remoteThreadId_of_given hid i⟩
  refine ⟨hclear.githubItems item hgithub, ?_⟩
  have hreply := hclear.replies item hgithub
    (.inl ⟨threadId, thread, hfollows, hlisted, hresolved⟩)
  obtain hreply | ⟨hhistorical, -, -, hexpected⟩ := hreply
  · have hlogin : (observations.bundle items []).currentLogin = some login := hcurrent
    exact .inl (hlogin ▸ hreply)
  · exact .inr ⟨hhistorical, hexpected⟩

theorem no_pending_of_clear (hcurrent : observations.currentLogin = some login)
    {items : List Dict} (hclear : observations.Clear items []) {review : Dict}
    (hreview : review ∈ observations.pendingReviews) (hpending : isPendingReview review) :
    login ≠ "" ∧ reviewLogin review ≠ some login := by
  have hnot := hclear.reviews review hreview
  have hlogin : (observations.bundle items []).currentLogin = some login := hcurrent
  unfold EvidenceBundle.PendingForLogin at hnot
  rw [hlogin] at hnot
  simp only [hpending, true_and, not_or] at hnot
  obtain ⟨hgiven, hother⟩ := hnot
  have hne : login ≠ "" := by
    rintro rfl
    exact hgiven rfl
  have hkept : given? (some login) = some login := by simp [given?, hne]
  exact ⟨hne, fun hsame => hother (hsame.trans hkept.symm)⟩

theorem checks_of_clear
    (hrequired : observations.checkRequirement =
      checkRequirement requireChecks requireRequiredChecks)
    (hchecks : (requireChecks || requireRequiredChecks) = true) {items : List Dict}
    (hclear : observations.Clear items []) :
    observations.checkRuns ≠ [] ∧ ∀ check ∈ observations.checkRuns,
      checkBucket check = .pass ∨ checkBucket check = .skipping := by
  refine hclear.checks (.inl ?_)
  show (given? observations.checkRequirement).isSome
  rw [hrequired]
  unfold checkRequirement
  cases requireRequiredChecks with
  | true => simp [given?]
  | false =>
      have hall : requireChecks = true := by simpa using hchecks
      simp [given?, hall]

end Clear

/-- Where the gatekeeper passes a pull request, every thread that GitHub lists is resolved, and the
session it saves has an item that follows the thread, blocks nothing, and was answered by the
current login unless it is known from history alone. No pending review of the login is left, and
where checks are required there are some and all are green. -/
theorem run_passes (hfollows : FollowsThreads session.items)
    (hrun : run search reads requireChecks requireRequiredChecks session =
      .ok (some (.ok (result, saved))))
    (hpassed : result.passed) :
    ∃ login threads reviews, reads.viewerLogin = .ok login ∧ reads.threads = .ok threads ∧
      reads.pendingReviews = .ok reviews ∧
      (∀ thread ∈ threads, threadIsResolved thread ∧
        ∀ threadId, given? (threadIdentifier thread) = some threadId →
          ∃ item, saved.items["github-thread:" ++ threadId]? = some item ∧ ¬ isBlockingItem item ∧
            (hasReplyEvidence item (some login) ∨
              (item.get "historical_remote_only").truthy ∧ ¬ hasRuntimeReplyExpectation item)) ∧
      (∀ review ∈ reviews, isPendingReview review →
        login ≠ "" ∧ reviewLogin review ≠ some login) ∧
      ((requireChecks || requireRequiredChecks) = true →
        ∃ checks, reads.checkRuns = .ok (some checks) ∧ checks ≠ [] ∧
          ∀ check ∈ checks, checkBucket check = .pass ∨ checkBucket check = .skipping) := by
  obtain ⟨login, observations, hjudged⟩ := run_judged hrun
  have hclear := hjudged.clear hpassed
  refine ⟨login, observations.remoteThreads, observations.pendingReviews, hjudged.viewer,
    hjudged.listed, hjudged.pending, fun thread hthread => ⟨hclear.threads thread hthread,
      fun threadId hid => ?_⟩, fun review hreview hpending => ?_, fun hrequired => ?_⟩
  · obtain ⟨item, hrow, hthreadOf⟩ := followed_merged search (some login)
      (.inl ⟨thread, hthread, hid⟩)
    have hkind := followsThreads_merged hfollows observations.remoteThreads threadId item hrow
    have hmem : item ∈ mergedItems search login observations session :=
      List.mem_map.mpr ⟨_, Std.ExtTreeMap.mem_toList_iff_getElem?_eq_some.mpr hrow, rfl⟩
    refine ⟨item, ?_, answered_of_clear hjudged.current hclear hthread hid hmem hkind hthreadOf⟩
    rw [hjudged.items]
    exact hrow
  · exact no_pending_of_clear hjudged.current hclear hreview hpending
  · obtain ⟨hsome, hgreen⟩ := checks_of_clear hjudged.required hrequired hclear
    have hchecked := hjudged.checked
    unfold readChecks at hchecked
    rw [if_pos hrequired] at hchecked
    cases hrows : reads.checkRuns with
    | error error => simp [hrows, Except.map] at hchecked
    | ok rows =>
        simp only [hrows, Except.map, Except.ok.injEq] at hchecked
        cases rows with
        | none => exact absurd hchecked.symm hsome
        | some checks =>
            obtain rfl : checks = observations.checkRuns := hchecked
            exact ⟨_, rfl, hsome, hgreen⟩

end Run

/-- A resolved thread to which the viewer replied, and one green check. -/
def sampleReads : GateReads Unit where
  stackContext := none
  viewerLogin := .ok "me"
  threads := .ok [Dict.ofFields
    [("thread_id", .str "T"), ("isResolved", .bool true), ("viewer_replied", .bool true),
      ("viewer_reply_url", .str "u")]]
  pendingReviews := .ok []
  checkRuns := .ok (some [Dict.ofFields [("bucket", .str "pass")]])

/-- The item of that thread, which was open when it was last seen. -/
def sampleItem : Dict :=
  Dict.ofFields [("item_id", .str "github-thread:T"), ("item_kind", .str "github_thread"),
    ("source", .str "github"), ("thread_id", .str "T"), ("state", .str "open"),
    ("status", .str "OPEN"), ("blocking", .bool true)]

def sampleSession : Session :=
  { root := ∅, items := Std.ExtTreeMap.insert ∅ "github-thread:T" sampleItem, leases := ∅,
    leaseEvents := [] }

/-- What an outcome that did not fail holds. -/
theorem ok_of_toOption {ε α : Type} {result : Except ε α} {value : α}
    (h : result.toOption = some value) : result = .ok value := by
  cases result with
  | error error => cases h
  | ok found => exact congrArg Except.ok (Option.some.inj h)

/-- The run passes, with an answered item for the thread. -/
theorem run_passes_sample : ∃ saved item,
    (∃ result, run ⟨fun _ => none, fun _ => none⟩ sampleReads true false sampleSession =
      .ok (some (.ok (result, saved)))) ∧
      saved.items["github-thread:T"]? = some item ∧ ¬ isBlockingItem item ∧
      (hasReplyEvidence item (some "me") ∨
        (item.get "historical_remote_only").truthy ∧ ¬ hasRuntimeReplyExpectation item) := by
  have h : ((run ⟨fun _ => none, fun _ => none⟩ sampleReads true false sampleSession).toOption.any
      fun judged => judged.any fun ended => ended.toOption.any (·.1.passed)) = true := by
    decide +kernel
  obtain ⟨judged, hjudged, hsome⟩ := (Option.any_eq_true _ _).mp h
  obtain ⟨ended, rfl, hresult⟩ := (Option.any_eq_true _ _).mp hsome
  obtain ⟨⟨result, saved⟩, hended, hpassed⟩ := (Option.any_eq_true _ _).mp hresult
  obtain rfl := ok_of_toOption hended
  have hrun := ok_of_toOption hjudged
  have hfollows : FollowsThreads sampleSession.items := by
    intro threadId item hitem
    rw [sampleSession, Std.ExtTreeMap.getElem?_insert] at hitem
    split at hitem
    · rw [← Option.some.inj hitem]
      decide +kernel
    · simp at hitem
  obtain ⟨login, threads, reviews, hlogin, hthreads, -, hanswered, -⟩ :=
    run_passes hfollows hrun hpassed
  obtain rfl := Except.ok.inj hlogin
  obtain rfl := Except.ok.inj hthreads
  have hid : given? (threadIdentifier (Dict.ofFields
      [("thread_id", .str "T"), ("isResolved", .bool true), ("viewer_replied", .bool true),
        ("viewer_reply_url", .str "u")])) = some "T" := by
    decide +kernel
  obtain ⟨item, hitem⟩ := (hanswered _ List.mem_cons_self).2 "T" hid
  exact ⟨saved, item, ⟨result, hrun⟩, hitem⟩

end Gatekeeper

end GhAddressCr
