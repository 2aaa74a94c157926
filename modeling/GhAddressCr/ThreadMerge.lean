import GhAddressCr.FieldEffects
import GhAddressCr.RemoteClosure

/-!
# Threads merged into items

The whole of what a refresh does to an item, with the severity and the review priority that the
thread is read to have. Each part of it writes keys that no other part reads, so a refresh with
the same threads finds nothing left to do.
-/
namespace GhAddressCr

open PyText GithubThreadState

/-- The body of the first comment of a thread. -/
def firstBody (thread : Dict) : Value :=
  if thread.get "first_body" = .null ∧ thread.get "comment_source" = .str "first" then
    thread.get "body"
  else thread.get "first_body"

def firstUrl (thread : Dict) : Value := (thread.get "first_url").orElse (thread.get "url")

/-- The severity that a thread shows, in its payload or in its first comment. -/
def detectedSeverity (search : MarkerSearch) (thread : Dict) : Option Dict :=
  let rawSeverity := thread.get "severity"
  let given := severityEvidence rawSeverity "github_payload"
    (if rawSeverity = .null then none else some (strip rawSeverity.text))
    ((thread.get "url").orElse (firstUrl thread))
  given.or (if firstBody thread = .null then none
    else extractSeverityEvidence search (firstBody thread) "github_first_comment" (firstUrl thread))

/-- The priority that a thread shows, in its payload or in its first comment. -/
def detectedPriority (search : MarkerSearch) (thread : Dict) : Option Dict :=
  let rawPriority := (thread.get "review_priority").orElse (thread.get "priority")
  let given := reviewPriorityEvidence rawPriority "github_payload"
    (given? (some (strip (rawPriority.orElse (.str "")).text)))
    ((thread.get "url").orElse (firstUrl thread))
  given.or (if firstBody thread = .null then none
    else extractReviewPriorityEvidence search (firstBody thread) "github_first_comment"
      (firstUrl thread))

/-- The severity of an item whose thread shows none: the one that its own evidence names. -/
def leaveSeverity (evident : Option String) (item : Dict) : Dict :=
  match evident with
  | some severity => item.set "severity" (.str severity)
  | none => applySeverityEvidence item none

/-- The severity of an item, from its thread or else from the evidence it has. -/
def mergeSeverity (search : MarkerSearch) (thread item : Dict) : Dict :=
  match detectedSeverity search thread with
  | some evidence => applySeverityEvidence item (some evidence)
  | none => leaveSeverity (firstSceneItemSeverity item) item

def mergePriority (search : MarkerSearch) (thread item : Dict) : Dict :=
  match detectedPriority search thread with
  | some evidence => item.set "review_priority_evidence" evidence.toValue
  | none => if firstBody thread = .null then item else item.pop "review_priority_evidence"

/-- `_extract_thread_severity_and_priority`. -/
def extractThreadSeverityAndPriority (search : MarkerSearch) (thread item : Dict) : Dict :=
  mergePriority search thread (mergeSeverity search thread item)

/-- What the item of a thread is told of it, before anything else. -/
def identifyThread (thread : Dict) (threadId : String) (item : Dict) : Dict :=
  let item := item.setDefault "item_id" (.str ("github-thread:" ++ threadId))
  let item := item.setDefault "item_kind" (.str "github_thread")
  let item := item.setDefault "source" (.str "github")
  let item := (item.set "thread_id" (.str threadId)).set "origin_ref" (.str threadId)
  describeThread thread item

/-- `_merge_single_remote_thread` on an item, which is empty for a new thread. -/
def mergeThread (search : MarkerSearch) (currentLogin : Option String) (thread : Dict)
    (threadId : String) (item : Dict) : Dict :=
  let item := identifyThread thread threadId item
  let item := extractThreadSeverityAndPriority search thread item
  applyViewerReplyEvidence thread (determineMergedThreadState thread item) currentLogin

/-- One round of the loop of `_session_with_remote_threads`. -/
def mergeThreadRow (search : MarkerSearch) (currentLogin : Option String) (items : Rows Dict)
    (thread : Dict) : Rows Dict :=
  match given? (threadIdentifier thread) with
  | none => items
  | some threadId =>
      let itemId := "github-thread:" ++ threadId
      items.insert itemId
        (mergeThread search currentLogin thread threadId (items[itemId]?.getD ∅))

/-- `_session_with_remote_threads`. -/
def mergeThreads (search : MarkerSearch) (currentLogin : Option String) (threads : List Dict)
    (session : Session) : Session :=
  { session with items := threads.foldl (mergeThreadRow search currentLogin) session.items }

theorem Fieldwise.setIfSome {f : Dict → Dict} (hf : Fieldwise f) (key : String)
    (value : Option Value) : Fieldwise fun d => (f d).setIfSome key value := by
  cases value with
  | none => exact hf
  | some value => exact hf.set key value

theorem SameBut.setIfSome {keys : List String} {d : Dict} {key : String} (hkey : key ∈ keys)
    (value : Option Value) : SameBut keys d (d.setIfSome key value) := by
  cases value with
  | none => exact SameBut.refl d
  | some value => exact SameBut.set hkey value

section Parts

variable (search : MarkerSearch) (currentLogin : Option String) (thread : Dict)

def identityKeys : List String :=
  ["item_id", "item_kind", "source", "thread_id", "origin_ref", "path", "line", "url", "body",
    "first_author_login", "latest_author_login"]

theorem identifyThread_settles (threadId : String) :
    Settles identityKeys [] (identifyThread thread threadId) := by
  apply Fieldwise.settles
  · unfold identifyThread describeThread
    simp only [List.foldl_cons, List.foldl_nil]
    exact ((((((((((Fieldwise.id.setDefault _ _).setDefault _ _).setDefault _ _).set _ _).set _
      _).setOrElse _ _).setOrElse _ _).setOrElse _ _).setOrElse _ _).setIfSome _ _).setIfSome _ _
  · intro d
    unfold identifyThread describeThread
    simp only [List.foldl_cons, List.foldl_nil]
    refine ((((((((((SameBut.setDefault ?_ _).trans (.setDefault ?_ _)).trans
      (.setDefault ?_ _)).trans (.set ?_ _)).trans (.set ?_ _)).trans (.set ?_ _)).trans
      (.set ?_ _)).trans (.set ?_ _)).trans (.set ?_ _)).trans (.setIfSome ?_ _)).trans
      (.setIfSome ?_ _) <;> simp [identityKeys]

def severityKeys : List String := ["severity", "severity_evidence"]

theorem firstSceneItemSeverity_congr {item item' : Dict}
    (h : item'[("severity_evidence" : String)]? = item[("severity_evidence" : String)]?) :
    firstSceneItemSeverity item' = firstSceneItemSeverity item := by
  rw [firstSceneItemSeverity, firstSceneItemSeverity, Dict.get, Dict.get, h]

theorem mergeSeverity_settles : Settles severityKeys [] (mergeSeverity search thread) := by
  unfold mergeSeverity
  cases hdetected : detectedSeverity search thread with
  | some evidence =>
      apply Fieldwise.settles
      · exact (Fieldwise.id.set _ _).set _ _
      · exact fun d => (SameBut.set (by simp [severityKeys]) _).trans
          (.set (by simp [severityKeys]) _)
  | none =>
      have hsettles : Settles severityKeys [] fun item =>
          leaveSeverity (firstSceneItemSeverity item) item := by
        apply Fieldwise.settles_choice
        · rintro (_ | severity)
          · exact (Fieldwise.id.pop _).pop _
          · exact Fieldwise.id.set _ _
        · rintro (_ | severity) d key hkey
          · simp only [severityKeys, List.mem_cons, List.not_mem_nil, or_false, not_or] at hkey
            rw [leaveSeverity, applySeverityEvidence, Dict.getElem?_pop, if_neg (Ne.symm hkey.2),
              Dict.getElem?_pop, if_neg (Ne.symm hkey.1)]
          · exact SameBut.set (by simp [severityKeys]) _ key hkey
        · exact fun d d' hsame => firstSceneItemSeverity_congr (hsame _ (by simp [severityKeys]))
        · intro d
          cases hseverity : firstSceneItemSeverity d with
          | some severity =>
              refine (firstSceneItemSeverity_congr ?_).trans hseverity
              simp [leaveSeverity, Dict.getElem?_set]
          | none =>
              simp [leaveSeverity, applySeverityEvidence, firstSceneItemSeverity, Dict.get,
                Dict.getElem?_pop]
              rfl
      exact hsettles

theorem mergePriority_settles :
    Settles ["review_priority_evidence"] [] (mergePriority search thread) := by
  apply Fieldwise.settles
  · unfold mergePriority
    split
    · exact Fieldwise.id.set _ _
    · split_ifs
      · exact Fieldwise.id
      · exact Fieldwise.id.pop _
  · intro d key hkey
    have hne : "review_priority_evidence" ≠ key := by simpa [eq_comm] using hkey
    unfold mergePriority
    split
    · rw [Dict.getElem?_set, if_neg hne]
    · split_ifs
      · rfl
      · rw [Dict.getElem?_pop, if_neg hne]

def stateKeys : List String := ["is_outdated", "state", "status", "blocking", "handled"]

/-- The state and status of an item that is ready to be published, or else of an open one. -/
def openState (thread : Dict) (ready : Option Value) (item : Dict) : Dict :=
  let isOutdated := isStaleOrOutdatedGithubThread thread
  let item := item.set "is_outdated" (.bool isOutdated)
  match ready with
  | some status =>
      ((item.set "state" (.str "publish_ready")).set "status" status).set "blocking" (.bool true)
  | none =>
      if isOutdated then
        ((item.set "state" (.str "stale")).set "status" (.str "STALE")).set "blocking" (.bool true)
      else ((item.set "state" (.str "open")).set "status" (.str "OPEN")).set "blocking" (.bool true)

theorem Value.orElse_orElse (a b : Value) : (a.orElse b).orElse b = a.orElse b := by
  unfold Value.orElse
  split_ifs <;> rfl

/-- The status of an item that is ready to be published. -/
def readyStatus (item : Dict) : Option Value :=
  if hasPublishReadyEvidence item then some ((item.get "status").orElse (.str "OPEN")) else none

theorem openState_sameBut (ready : Option Value) (item : Dict) :
    SameBut stateKeys item (openState thread ready item) := by
  have hset : ∀ outdated state status blocking : Value,
      SameBut stateKeys item ((((item.set "is_outdated" outdated).set "state" state).set "status"
        status).set "blocking" blocking) := by
    intro outdated state status blocking
    refine (((SameBut.set ?_ _).trans (.set ?_ _)).trans (.set ?_ _)).trans (.set ?_ _) <;>
      simp [stateKeys]
  cases ready with
  | some status => exact hset _ _ _ _
  | none =>
      unfold openState
      simp only
      split_ifs
      · exact hset _ _ _ _
      · exact hset _ _ _ _

theorem hasPublishReadyEvidence_congr {item item' : Dict} (h : SameBut stateKeys item item') :
    hasPublishReadyEvidence item' = hasPublishReadyEvidence item := by
  rw [hasPublishReadyEvidence, hasPublishReadyEvidence, h.get (by decide), h.get (by decide)]

theorem openState_settles :
    Settles stateKeys ["accepted_response", "publish_resolution"]
      fun item => openState thread (readyStatus item) item := by
  apply Fieldwise.settles_choice _ (openState_sameBut thread)
  · intro item item' hsame
    have hfield : ∀ key ∈ stateKeys ++ ["accepted_response", "publish_resolution"],
        item'.get key = item.get key := fun key hkey => by rw [Dict.get, Dict.get, hsame key hkey]
    rw [readyStatus, readyStatus, hasPublishReadyEvidence, hasPublishReadyEvidence,
      hfield "accepted_response" (by simp), hfield "publish_resolution" (by simp),
      hfield "status" (by simp [stateKeys])]
  · intro item
    have hsame := hasPublishReadyEvidence_congr (openState_sameBut thread (readyStatus item) item)
    unfold readyStatus at hsame ⊢
    rw [hsame]
    cases hasPublishReadyEvidence item with
    | true => simp [openState, Dict.get, Dict.getElem?_set, Value.orElse_orElse]
    | false => simp
  · rintro (_ | status)
    · unfold openState
      simp only
      split_ifs
      · exact (((Fieldwise.id.set _ _).set _ _).set _ _).set _ _
      · exact (((Fieldwise.id.set _ _).set _ _).set _ _).set _ _
    · exact (((Fieldwise.id.set _ _).set _ _).set _ _).set _ _

/-- The item of a resolved thread. -/
def closedState (thread : Dict) (state : Value) (item : Dict) : Dict :=
  ((((item.set "is_outdated" (.bool (isStaleOrOutdatedGithubThread thread))).set "state" state).set
    "status" (.str "CLOSED")).set "blocking" (.bool false)).set "handled" (.bool true)

theorem resolvedState_congr {item item' : Dict} (h : item'.get "state" = item.get "state") :
    resolvedState item' = resolvedState item := by
  rw [resolvedState, resolvedState, Dict.textOr, Dict.textOr, h]

theorem closedState_settles :
    Settles stateKeys ["accepted_response", "publish_resolution"]
      fun item => closedState thread (resolvedState item) item := by
  apply Fieldwise.settles_choice
  · exact fun state => ((((Fieldwise.id.set _ _).set _ _).set _ _).set _ _).set _ _
  · intro state item
    refine ((((SameBut.set ?_ _).trans (.set ?_ _)).trans (.set ?_ _)).trans (.set ?_ _)).trans
      (.set ?_ _) <;> simp [stateKeys]
  · intro item item' hsame
    apply resolvedState_congr
    rw [Dict.get, Dict.get, hsame "state" (by simp [stateKeys])]
  · intro item
    have hstate : (closedState thread (resolvedState item) item).get "state" =
        resolvedState item := by simp [closedState, Dict.get, Dict.getElem?_set]
    have hterminal := List.contains_iff_mem.mpr (resolvedState_terminal item)
    have hagain := hstate
    rw [resolvedState, Dict.textOr, hstate, if_pos hterminal]

theorem determineMergedThreadState_settles :
    Settles stateKeys ["accepted_response", "publish_resolution"]
      (determineMergedThreadState thread) := by
  by_cases hresolved : threadIsResolved thread = true
  · have hclosed : determineMergedThreadState thread =
        fun item => closedState thread (resolvedState item) item := by
      funext item
      have hstate : resolvedState (item.set "is_outdated"
          (.bool (isStaleOrOutdatedGithubThread thread))) = resolvedState item :=
        resolvedState_congr (by simp [Dict.get, Dict.getElem?_set])
      unfold determineMergedThreadState closedState
      simp only [if_pos hresolved, hstate]
    rw [hclosed]
    exact closedState_settles thread
  · have hopen : determineMergedThreadState thread =
        fun item => openState thread (readyStatus item) item := by
      funext item
      have hother : ∀ key : String, key ≠ "is_outdated" → ∀ value : Value,
          (item.set "is_outdated" value).get key = item.get key := by
        intro key hkey value
        rw [Dict.get, Dict.get, Dict.getElem?_set, if_neg hkey.symm]
      have hready : ∀ value : Value, hasPublishReadyEvidence (item.set "is_outdated" value) =
          hasPublishReadyEvidence item := by
        intro value
        rw [hasPublishReadyEvidence, hasPublishReadyEvidence, hother _ (by decide),
          hother _ (by decide)]
      unfold determineMergedThreadState openState readyStatus
      simp only [if_neg hresolved, hready, hother "status" (by decide)]
      cases hasPublishReadyEvidence item with
      | true => simp only [if_true]
      | false => simp only [Bool.false_eq_true, if_false]
    rw [hopen]
    exact openState_settles thread

/-- The item of a thread that the viewer has replied to. -/
def repliedItem (thread : Dict) (currentLogin : Option String) (author : Value) (item : Dict) :
    Dict :=
  let url := thread.get "viewer_reply_url"
  let author := (thread.get "viewer_login").orElse (author.orElse (optionalText currentLogin))
  ((item.set "reply_evidence" (replyEvidence url author)).set "reply_url" url).set "reply_posted"
    (.bool true)

def replyKeys : List String := ["reply_evidence", "reply_url", "reply_posted"]

theorem repliedItem_sameBut (author : Value) (item : Dict) :
    SameBut replyKeys item (repliedItem thread currentLogin author item) := by
  refine ((SameBut.set ?_ _).trans (.set ?_ _)).trans (.set ?_ _) <;> simp [replyKeys]

theorem applyViewerReplyEvidence_settles :
    Settles replyKeys ["reply_author_login"]
      fun item => applyViewerReplyEvidence thread item currentLogin := by
  by_cases hreplied : ((thread.get "viewer_replied").truthy &&
      (thread.get "viewer_reply_url").truthy) = true
  · have hset : (fun item => applyViewerReplyEvidence thread item currentLogin) = fun item =>
        repliedItem thread currentLogin (item.get "reply_author_login") item := by
      funext item
      unfold applyViewerReplyEvidence repliedItem
      simp only [if_pos hreplied]
    rw [hset]
    apply Fieldwise.settles_choice _ (repliedItem_sameBut currentLogin thread)
    · intro item item' hsame
      show item'.get "reply_author_login" = item.get "reply_author_login"
      rw [Dict.get, Dict.get, hsame "reply_author_login" (by simp)]
    · exact fun item => (repliedItem_sameBut currentLogin thread _ item).get (by decide)
    · exact fun author => ((Fieldwise.id.set _ _).set _ _).set _ _
  · have hsame : (fun item => applyViewerReplyEvidence thread item currentLogin) =
        fun item => item := by
      funext item
      unfold applyViewerReplyEvidence
      simp only [if_neg hreplied]
    rw [hsame]
    exact Settles.id

/-- The keys that a merge writes. -/
def mergedKeys : List String :=
  identityKeys ++ (severityKeys ++ ["review_priority_evidence"]) ++ stateKeys ++ replyKeys

/-- The keys that a merge reads and does not write. -/
def evidenceKeys : List String := ["accepted_response", "publish_resolution", "reply_author_login"]

theorem mergeThread_settles (threadId : String) :
    Settles mergedKeys evidenceKeys (mergeThread search currentLogin thread threadId) := by
  have hseverity : Settles (severityKeys ++ ["review_priority_evidence"]) []
      (extractThreadSeverityAndPriority search thread) :=
    (mergePriority_settles search thread).comp (mergeSeverity_settles search thread) (by decide)
      (by decide)
  have hshown : Settles (identityKeys ++ (severityKeys ++ ["review_priority_evidence"])) []
      fun item => extractThreadSeverityAndPriority search thread
        (identifyThread thread threadId item) :=
    hseverity.comp (identifyThread_settles thread threadId) (by decide) (by decide)
  have hstate := (determineMergedThreadState_settles thread).comp hshown (by decide) (by decide)
  exact (applyViewerReplyEvidence_settles currentLogin thread).comp hstate (by decide) (by decide)

end Parts

section Merge

variable {search : MarkerSearch} {currentLogin : Option String} {threads : List Dict}
  {items : Rows Dict} {session : Session}

/-- The ids that the threads have. -/
def remoteIds (threads : List Dict) : List String :=
  threads.filterMap fun thread => given? (threadIdentifier thread)

def remoteItemIds (threads : List Dict) : List String :=
  (remoteIds threads).map ("github-thread:" ++ ·)

/-- A round writes the item of its thread and no other. -/
theorem getElem?_mergeThreadRow (thread : Dict) (itemId : String) :
    (mergeThreadRow search currentLogin items thread)[itemId]? =
      match given? (threadIdentifier thread) with
      | none => items[itemId]?
      | some threadId =>
          if "github-thread:" ++ threadId = itemId then
            some (mergeThread search currentLogin thread threadId (items[itemId]?.getD ∅))
          else items[itemId]? := by
  unfold mergeThreadRow
  cases given? (threadIdentifier thread) with
  | none => rfl
  | some threadId =>
      simp only [Std.ExtTreeMap.getElem?_insert, Std.LawfulEqCmp.compare_eq_iff_eq]
      split_ifs with hid
      · rw [hid]
      · rfl

theorem getElem?_merged_of_notMem {itemId : String} (h : itemId ∉ remoteItemIds threads) :
    (threads.foldl (mergeThreadRow search currentLogin) items)[itemId]? = items[itemId]? := by
  induction threads generalizing items with
  | nil => rfl
  | cons thread threads ih =>
      have hrest : itemId ∉ remoteItemIds threads := fun hmem => h (by
        simp only [remoteItemIds, remoteIds, List.filterMap_cons] at hmem ⊢
        split <;> simp_all)
      rw [List.foldl_cons, ih hrest, getElem?_mergeThreadRow]
      cases hid : given? (threadIdentifier thread) with
      | none => rfl
      | some threadId =>
          have hne : "github-thread:" ++ threadId ≠ itemId := fun heq => h (by
            simp [remoteItemIds, remoteIds, hid, heq])
          simp only [if_neg hne]

/-- With distinct ids, each item is merged with its own thread and with no other. -/
theorem getElem?_merged_of_mem {thread : Dict} {threadId : String}
    (hdistinct : (remoteIds threads).Nodup) (hthread : thread ∈ threads)
    (hid : given? (threadIdentifier thread) = some threadId) :
    (threads.foldl (mergeThreadRow search currentLogin) items)["github-thread:" ++ threadId]? =
      some (mergeThread search currentLogin thread threadId
        (items["github-thread:" ++ threadId]?.getD ∅)) := by
  induction threads generalizing items with
  | nil => simp at hthread
  | cons first threads ih =>
      rw [List.foldl_cons]
      rcases List.mem_cons.mp hthread with hfirst | hrest
      · subst hfirst
        have hnew : threadId ∉ remoteIds threads := by
          have hcons : (threadId :: remoteIds threads).Nodup := by
            simpa [remoteIds, List.filterMap_cons, hid] using hdistinct
          exact (List.nodup_cons.mp hcons).1
        have hnotMem : "github-thread:" ++ threadId ∉ remoteItemIds threads := by
          intro hmem
          obtain ⟨other, hother, heq⟩ := List.mem_map.mp hmem
          exact hnew ((String.append_right_inj _).mp heq ▸ hother)
        rw [getElem?_merged_of_notMem hnotMem, getElem?_mergeThreadRow, hid]
        simp only [if_true]
      · have hdistinct' : (remoteIds threads).Nodup := by
          refine List.Nodup.sublist ?_ hdistinct
          exact (List.sublist_cons_self first threads).filterMap _
        have hother : (mergeThreadRow search currentLogin items first)[
            "github-thread:" ++ threadId]? = items["github-thread:" ++ threadId]? := by
          rw [getElem?_mergeThreadRow]
          cases hfirst : given? (threadIdentifier first) with
          | none => rfl
          | some firstId =>
              have hne : firstId ≠ threadId := by
                rintro rfl
                have hcons : (firstId :: remoteIds threads).Nodup := by
                  simpa [remoteIds, List.filterMap_cons, hfirst] using hdistinct
                exact (List.nodup_cons.mp hcons).1 (List.mem_filterMap.mpr ⟨thread, hrest, hid⟩)
              have hneItem : "github-thread:" ++ firstId ≠ "github-thread:" ++ threadId :=
                fun heq => hne ((String.append_right_inj _).mp heq)
              simp only [if_neg hneItem]
        rw [ih hdistinct' hrest, hother]

/-- An item is the one of a thread in the list, or it is left alone. -/
theorem mem_remoteItemIds {itemId : String} : itemId ∈ remoteItemIds threads ↔
    ∃ thread ∈ threads, ∃ threadId, given? (threadIdentifier thread) = some threadId ∧
      itemId = "github-thread:" ++ threadId := by
  simp only [remoteItemIds, remoteIds, List.mem_map, List.mem_filterMap]
  constructor
  · rintro ⟨threadId, ⟨thread, hthread, hid⟩, heq⟩
    exact ⟨thread, hthread, threadId, hid, heq.symm⟩
  · rintro ⟨thread, hthread, threadId, hid, heq⟩
    exact ⟨threadId, ⟨thread, hthread, hid⟩, heq.symm⟩

/-- A refresh with the same threads finds nothing left to do. -/
theorem mergeThreads_idempotent (hdistinct : (remoteIds threads).Nodup) :
    mergeThreads search currentLogin threads (mergeThreads search currentLogin threads session) =
      mergeThreads search currentLogin threads session := by
  have hitems : ∀ itemId : String,
      (threads.foldl (mergeThreadRow search currentLogin)
        (threads.foldl (mergeThreadRow search currentLogin) session.items))[itemId]? =
      (threads.foldl (mergeThreadRow search currentLogin) session.items)[itemId]? := by
    intro itemId
    by_cases hmem : itemId ∈ remoteItemIds threads
    · obtain ⟨thread, hthread, threadId, hid, rfl⟩ := mem_remoteItemIds.mp hmem
      rw [getElem?_merged_of_mem hdistinct hthread hid, getElem?_merged_of_mem hdistinct hthread
        hid, Option.getD_some, (mergeThread_settles search currentLogin thread threadId).idempotent]
    · rw [getElem?_merged_of_notMem hmem]
  unfold mergeThreads
  simp only [Session.mk.injEq, true_and, and_true]
  exact Std.ExtTreeMap.ext_getElem? hitems

/-- What a refresh does to an item that is there: it stays, with every field but those that
a thread shows. -/
theorem mergeThreads_keeps {itemId : String} {item : Dict}
    (hitem : session.items[itemId]? = some item) :
    ∃ item', (mergeThreads search currentLogin threads session).items[itemId]? = some item' ∧
      SameBut mergedKeys item item' := by
  show ∃ item', (threads.foldl (mergeThreadRow search currentLogin) session.items)[itemId]? =
    some item' ∧ SameBut mergedKeys item item'
  generalize session.items = items at hitem
  induction threads generalizing items item with
  | nil => exact ⟨item, hitem, SameBut.refl item⟩
  | cons thread threads ih =>
      rw [List.foldl_cons]
      have hrow : ∃ item', (mergeThreadRow search currentLogin items thread)[itemId]? =
          some item' ∧ SameBut mergedKeys item item' := by
        rw [getElem?_mergeThreadRow]
        cases hid : given? (threadIdentifier thread) with
        | none => exact ⟨item, hitem, SameBut.refl item⟩
        | some threadId =>
            simp only [hitem, Option.getD_some]
            split_ifs
            · exact ⟨_, rfl, (mergeThread_settles search currentLogin thread threadId).frame item⟩
            · exact ⟨item, rfl, SameBut.refl item⟩
      obtain ⟨merged, hmerged, hsame⟩ := hrow
      obtain ⟨item', hitem', hsame'⟩ := ih (mergeThreadRow search currentLogin items thread)
        hmerged
      exact ⟨item', hitem', hsame.trans hsame'⟩

/-- The fields of an item that say how it was answered and classified, and who holds it. -/
def keptKeys : List String :=
  ["accepted_response", "classification_evidence", "classification_note",
    "classification_record_id", "decision", "claimed_by", "claimed_at", "lease_expires_at",
    "active_lease_id"]

/-- A refresh with remote threads is framed, and refreshing again with the same threads changes
nothing: the items of other threads, the leases and the events stay as they are, and an item
keeps every field but those that a thread shows. -/
theorem remote_merge_framed_idempotent (search : MarkerSearch) (currentLogin : Option String)
    (threads : List Dict) (session : Session) (hdistinct : (remoteIds threads).Nodup) :
    let merged := mergeThreads search currentLogin threads session
    mergeThreads search currentLogin threads merged = merged ∧
    (∀ itemId : String, itemId ∉ remoteItemIds threads →
      merged.items[itemId]? = session.items[itemId]?) ∧
    merged = { session with items := merged.items } ∧
    ∀ (itemId : String) (item : Dict), session.items[itemId]? = some item →
      ∃ item', merged.items[itemId]? = some item' ∧ SameBut mergedKeys item item' ∧
        ∀ key ∈ keptKeys, item'[key]? = item[key]? := by
  refine ⟨mergeThreads_idempotent hdistinct, fun itemId hother => getElem?_merged_of_notMem hother,
    rfl, fun itemId item hitem => ?_⟩
  obtain ⟨item', hitem', hsame⟩ := mergeThreads_keeps hitem
  refine ⟨item', hitem', hsame, fun key hkey => hsame key ?_⟩
  exact (by decide : ∀ key ∈ keptKeys, key ∉ mergedKeys) key hkey

end Merge

/-- The session of one claimed thread, refreshed with its thread and a new one. -/
theorem claimed_thread_merges_once :
    let search : MarkerSearch := ⟨fun _ => none, fun _ => none⟩
    let threads := [Dict.ofFields [("id", .str "PRRT_1"), ("isOutdated", .bool true)],
      Dict.ofFields [("id", .str "PRRT_2")]]
    let session : Session :=
      { root := ∅, leases := ∅, leaseEvents := [],
        items := (∅ : Rows Dict).insert "github-thread:PRRT_1" (Dict.ofFields
          [("claimed_by", .str "fixer"), ("active_lease_id", .str "lease-1")]) }
    mergeThreads search none threads (mergeThreads search none threads session) =
      mergeThreads search none threads session := by
  intro search threads session
  exact (remote_merge_framed_idempotent search none threads session (by decide +kernel)).1

end GhAddressCr
