import GhAddressCr.Pagination
import Mathlib.Data.List.Infix

/-!
# Stacks, reviews, files and commits, page by page

A stack is read with cursors and is refused at a cursor that is missing or known. Reviews, files
and commits are read by page numbers, up to the first page that is not full.
-/
namespace GhAddressCr

open PyText RequestLoop

/-- `_head_tree_oid`. -/
def headTreeOid (payload : Dict) : Value :=
  match ((payload.get "headRef").field "target").toDict? with
  | none => .null
  | some target =>
      let treeOid := (target.get "tree").field "oid"
      if (target.get "oid").pyEq (payload.get "headRefOid") ∧ treeOid.truthy then .str treeOid.text
      else .null

/-- `_stack_member_from_pull_request`. -/
def stackMemberFromPullRequest (payload : Dict) (position : Value) : Dict :=
  Dict.ofFields
    [("position", position), ("pr_number", payload.get "number"), ("state", payload.get "state"),
      ("is_draft", payload.get "isDraft"), ("base_ref_name", payload.get "baseRefName"),
      ("head_ref_name", payload.get "headRefName"), ("head_oid", payload.get "headRefOid"),
      ("head_tree_oid", headTreeOid payload),
      ("merge_queue_state", (payload.get "mergeQueueEntry").field "state")]

/-- `_stack_page_identity`. -/
def stackPageIdentity (payload : Dict) : Value :=
  .list [payload.get "id", payload.get "number", payload.get "baseRefName", payload.get "size"]

/-- `_selected_pr_page_identity`. -/
def selectedPrPageIdentity (payload : Dict) : Value :=
  .list [payload.get "number", payload.get "state", payload.get "isDraft",
    payload.get "baseRefName", payload.get "headRefName", payload.get "headRefOid",
    (payload.get "stackEntry").field "position", (payload.get "mergeQueueEntry").field "state"]

/-- `_validated_stack_page`: the stack of a page, which is that of the first page. -/
def validatedStackPage (prPayload initialStack initialSelectedPr : Dict) : Except String Dict :=
  match (prPayload.get "stack").toDict? with
  | none => .error "stack_missing_during_pagination"
  | some currentStack =>
      if !(stackPageIdentity currentStack).pyEq (stackPageIdentity initialStack) ||
          !(selectedPrPageIdentity prPayload).pyEq (selectedPrPageIdentity initialSelectedPr) then
        .error "pagination_stack_changed"
      else .ok currentStack

/-- `_is_stack_capability_error`. -/
def isStackCapabilityError (detail : String) : Bool :=
  let normalized := (lower detail).toList
  ["stack", "stackentry", "entries"].any fun field =>
    ["field \x27" ++ field ++ "\x27 doesn\x27t exist", "field \"" ++ field ++ "\" doesn\x27t exist",
      "cannot query field \x27" ++ field ++ "\x27", "cannot query field \"" ++ field ++ "\""].any
      fun marker => marker.toList <:+: normalized

/-- An observation of a stack, as it is projected. -/
def stackObservation (header : ObservationHeader) (availability : String)
    (fields : List (String × Value)) : Dict :=
  Dict.ofFields
    ([("schema_version", .str stackObservationSchemaVersion), ("availability", .str availability),
      ("repo", .str header.repo), ("selected_pr_number", .str header.selectedPrNumber),
      ("observed_at", .str header.observedAt)] ++ fields)

/-- `_invalid_stack_context`. -/
def invalidStackContext (header : ObservationHeader) (invariant : String) : Option StackContext :=
  projectStackContext (stackObservation header "invalid"
    [("invalid_invariant", .str invariant), ("members", .list [])])

/-- `_selected_stack_entry_invariant`. -/
def selectedStackEntryInvariant (selectedPr : Dict) (memberRows : List Dict) (prNumber : String) :
    Option String :=
  match (selectedPr.get "stackEntry").field "position" with
  | .int position =>
      if position < 1 then some "selected_stack_entry_invalid"
      else
        match memberRows.find? fun row => row.textOr "pr_number" "" == prNumber with
        | none => none
        | some selectedMember =>
            if (selectedMember.get "position").pyEq (.int position) then none
            else some "selected_position_mismatch"
  | _ => some "selected_stack_entry_invalid"

/-- `_project_complete_stack_context`. -/
def projectCompleteStackContext (header : ObservationHeader) (stackPayload selectedPr : Dict)
    (memberRows : List Dict) : Option StackContext :=
  match selectedStackEntryInvariant selectedPr memberRows header.selectedPrNumber with
  | some invariant => invalidStackContext header invariant
  | none =>
      projectStackContext (stackObservation header "present"
        [("stack_node_id", stackPayload.get "id"), ("stack_number", stackPayload.get "number"),
          ("trunk_ref_name", stackPayload.get "baseRefName"),
          ("reported_size", stackPayload.get "size"),
          ("members", .list (memberRows.map Dict.toValue))])

/-- The pull request in an answer; `none` where the reader raises. -/
def stackPullRequest (payload : Value) : Option Dict := do
  let payload ← payload.toDict?
  let data ← ((payload.get "data").orElse (.dict [])).toDict?
  let repository ← ((data.get "repository").orElse (.dict [])).toDict?
  (repository.get "pullRequest").toDict?

/-- Where the loop of `_read_stack_context` is when it sends a query. -/
structure StackState where
  sent : ℕ
  seenCursors : List String
  /-- The pull request and the stack of the first page. -/
  first : Option (Dict × Dict)
  memberRows : List Dict

/-- The row of a member, if the entry has a pull request. -/
def stackMemberRow (node : Dict) : Option Dict :=
  (node.get "pullRequest").toDict?.map fun memberPr =>
    stackMemberFromPullRequest memberPr (node.get "position")

/-- A page of a stack whose first page had this pull request and this stack. -/
def readStackPage (header : ObservationHeader) (selectedPr stackPayload : Dict) (s : StackState)
    (prPayload : Dict) : StackState ⊕ Option StackContext :=
  match validatedStackPage prPayload stackPayload selectedPr with
  | .error invariant => .inr (invalidStackContext header invariant)
  | .ok currentStack =>
      let entries := currentStack.get "entries"
      if entries.toDict?.isNone then .inr (invalidStackContext header "entries_not_object")
      else
        match (connectionNodes entries).mapM stackMemberRow with
        | none => .inr (invalidStackContext header "member_pull_request_missing")
        | some rows =>
            let memberRows := s.memberRows ++ rows
            match commentPageState entries with
            | (false, _) =>
                .inr (projectCompleteStackContext header stackPayload selectedPr memberRows)
            | (true, none) => .inr (invalidStackContext header "pagination_cursor_invalid")
            | (true, some nextCursor) =>
                if nextCursor ∈ s.seenCursors then
                  .inr (invalidStackContext header "pagination_cursor_invalid")
                else
                  .inl {
                    sent := s.sent + 1
                    seenCursors := nextCursor :: s.seenCursors
                    first := some (selectedPr, stackPayload), memberRows }

/-- The first page, which says whether there is a stack. -/
def readFirstStackPage (header : ObservationHeader) (s : StackState) (prPayload : Dict) :
    StackState ⊕ Option StackContext :=
  match prPayload.get "stack" with
  | .null =>
      .inr (projectStackContext (stackObservation header "absent"
        [("selected_pr", (stackMemberFromPullRequest prPayload (.int 1)).toValue),
          ("members", .list [])]))
  | rawStack =>
      match rawStack.toDict? with
      | none => .inr (invalidStackContext header "stack_not_object")
      | some stackPayload => readStackPage header prPayload stackPayload s prPayload

/-- `_read_stack_context`, which returns `none` where it raises. An answer is what was read, or
the text of the error. -/
def stackLoop (header : ObservationHeader) :
    RequestLoop StackState ℕ (Except String Value) (Option StackContext) where
  request := StackState.sent
  receive s answer :=
    match answer with
    | .error detail =>
        if isStackCapabilityError detail then
          .inr (projectStackContext (stackObservation header "unavailable"
            [("diagnostic_code", .str "STACK_CONTEXT_UNAVAILABLE"), ("members", .list [])]))
        else .inr none
    | .ok payload =>
        match stackPullRequest payload with
        | none => .inr none
        | some prPayload =>
            match s.first with
            | none => readFirstStackPage header s prPayload
            | some (selectedPr, stackPayload) =>
                readStackPage header selectedPr stackPayload s prPayload

def stackStart : StackState ⊕ Option StackContext :=
  .inl { sent := 0, seenCursors := [], first := none, memberRows := [] }

/-- The cursors in the answers. -/
def stackCursors (answers : ℕ → Except String Value) : Set String :=
  {cursor | ∃ sent payload prPayload, answers sent = .ok payload ∧
    stackPullRequest payload = some prPayload ∧
      (commentPageState ((prPayload.get "stack").field "entries")).2 = some cursor}

theorem readStackPage_inl {header : ObservationHeader} {selectedPr stackPayload : Dict}
    {s s' : StackState} {prPayload : Dict}
    (h : readStackPage header selectedPr stackPayload s prPayload = .inl s') :
    ∃ cursor, (commentPageState ((prPayload.get "stack").field "entries")).2 = some cursor ∧
      cursor ∉ s.seenCursors ∧ s'.seenCursors = cursor :: s.seenCursors := by
  unfold readStackPage at h
  split at h
  · cases h
  · next currentStack hstack =>
    have hentries : (prPayload.get "stack").field "entries" = currentStack.get "entries" := by
      unfold validatedStackPage at hstack
      split at hstack
      · cases hstack
      · next other hother =>
        split at hstack
        · cases hstack
        · obtain rfl : other = currentStack := by simpa using hstack
          simp [Value.field, hother]
    rw [hentries]
    simp only at h
    split at h
    · cases h
    · split at h
      · cases h
      · split at h
        · cases h
        · cases h
        · next nextCursor hstate =>
          split_ifs at h with hseen
          obtain rfl := Sum.inl.inj h
          exact ⟨nextCursor, by rw [hstate], hseen, rfl⟩

theorem stackLoop_step_inl {header : ObservationHeader} {answers : ℕ → Except String Value}
    {s s' : StackState} (h : (stackLoop header).step answers s = .inl s') :
    ∃ cursor ∈ stackCursors answers,
      cursor ∉ s.seenCursors ∧ s'.seenCursors = cursor :: s.seenCursors := by
  simp only [step, stackLoop] at h
  split at h
  · split at h <;> cases h
  · next payload hanswer =>
    split at h
    · cases h
    · next prPayload hpr =>
      have hpage : ∃ selectedPr stackPayload,
          readStackPage header selectedPr stackPayload s prPayload = .inl s' := by
        split at h
        · unfold readFirstStackPage at h
          split at h
          · cases h
          · split at h
            · cases h
            · exact ⟨_, _, h⟩
        · exact ⟨_, _, h⟩
      obtain ⟨selectedPr, stackPayload, hpage⟩ := hpage
      obtain ⟨cursor, hcursor, hfresh, hseen⟩ := readStackPage_inl hpage
      exact ⟨cursor, ⟨s.sent, payload, prPayload, hanswer, hpr, hcursor⟩, hfresh, hseen⟩

/-- The reader of a stack uses no cursor twice. -/
theorem stackLoop_ends (header : ObservationHeader) {answers : ℕ → Except String Value}
    (hfinite : (stackCursors answers).Finite) : (stackLoop header).Ends answers stackStart := by
  apply ends_of_fresh StackState.seenCursors hfinite.toFinset
  intro s s' h
  obtain ⟨cursor, hcursor, hfresh, hseen⟩ := stackLoop_step_inl h
  exact ⟨cursor, hfinite.mem_toFinset.mpr hcursor, hfresh, hseen⟩

/-- Where a reader by page numbers is: the page it asks for, and what it has found. -/
structure NumberedState (α : Type) where
  page : ℕ
  found : List α

def perPage : ℕ := 100

/-- A reader that asks for one page after the other until one is not full. It returns `none`
where it raises. -/
def numberedLoop {α : Type} (rows : List Value → List α) :
    RequestLoop (NumberedState α) ℕ (Option Value) (Option (List α)) where
  request := NumberedState.page
  receive s answer :=
    match answer with
    | some (.list payload) =>
        let found := s.found ++ rows payload
        if payload.length < perPage then .inr (some found) else .inl { page := s.page + 1, found }
    | _ => .inr none

def numberedStart (α : Type) {β : Type} : NumberedState α ⊕ β := .inl { page := 1, found := [] }

/-- `_review_login` of the client. -/
def clientReviewLogin (review : Dict) : Option String :=
  let named := ["author_login", "login"].find? fun key =>
    match review.get key with
    | .str login => login != ""
    | _ => false
  match named with
  | some key => some (review.textOr key "")
  | none =>
      match (review.get "user").field "login", (review.get "author").field "login" with
      | .str login, _ => some login
      | _, .str login => some login
      | _, _ => none

/-- The rows of `list_pending_reviews` for a login. -/
def pendingRows (login : Option String) (payload : List Value) : List Dict :=
  (payload.filterMap Value.toDict?).filter fun review =>
    isPendingReview review && (given? login).all fun login => clientReviewLogin review == some login

def listPendingReviews (login : Option String) := numberedLoop (pendingRows login)

/-- The rows of `list_pr_files`. -/
def fileRows (payload : List Value) : List Dict :=
  ((payload.filterMap Value.toDict?).filter fun row => (row.get "filename").truthy).map fun row =>
    Dict.ofFields
      [("path", .str (row.get "filename").text), ("status", row.get "status"),
        ("additions", row.get "additions"), ("deletions", row.get "deletions"),
        ("changes", row.get "changes")]

/-- `list_pr_files`, which also stops at a page without rows. -/
def listPrFiles : RequestLoop (NumberedState Dict) ℕ (Option Value) (Option (List Dict)) where
  request := NumberedState.page
  receive s answer :=
    match answer with
    | some (.list payload) =>
        if payload = [] then .inr (some s.found)
        else
          let found := s.found ++ fileRows payload
          if payload.length < perPage then .inr (some found) else .inl { page := s.page + 1, found }
    | _ => .inr none

/-- The rows of `list_pr_commit_shas`. -/
def commitShas (payload : List Value) : List String :=
  ((payload.filterMap Value.toDict?).filter fun row => (row.get "sha").truthy).map fun row =>
    (row.get "sha").text

def listPrCommitShas := numberedLoop commitShas

/-- A page without rows is not full, so stopping there makes no difference. -/
theorem listPrFiles_eq : listPrFiles = numberedLoop fileRows := by
  unfold listPrFiles numberedLoop
  congr 1
  funext s answer
  split
  · next payload =>
    by_cases hempty : payload = []
    · subst hempty
      simp [fileRows, perPage]
    · simp [hempty]
  · rfl

/-- The page has as many rows as a page can have. -/
def IsFullRows (answer : Option Value) : Prop :=
  ∃ payload, answer = some (.list payload) ∧ perPage ≤ payload.length

section Numbered

variable {α : Type} {rows : List Value → List α} {answers : ℕ → Option Value}

theorem numberedLoop_step_inl {s s' : NumberedState α}
    (h : (numberedLoop rows).step answers s = .inl s') :
    IsFullRows (answers s.page) ∧ s'.page = s.page + 1 := by
  simp only [step, numberedLoop] at h
  split at h
  · next payload hanswer =>
    split_ifs at h with hshort
    obtain rfl := Sum.inl.inj h
    exact ⟨⟨payload, hanswer, by omega⟩, rfl⟩
  · cases h

theorem numberedLoop_step_of_full {s : NumberedState α} (h : IsFullRows (answers s.page)) :
    ∃ s', (numberedLoop rows).step answers s = .inl s' := by
  obtain ⟨payload, hanswer, hfull⟩ := h
  have hlong : ¬ payload.length < perPage := by omega
  refine ⟨{ page := s.page + 1, found := s.found ++ rows payload }, ?_⟩
  simp only [step, numberedLoop, hanswer, if_neg hlong]

/-- A reader by page numbers ends exactly when it comes to a page that is not full. -/
theorem numberedLoop_ends_iff :
    (numberedLoop rows).Ends answers (numberedStart α) ↔
      ∃ page, 1 ≤ page ∧ ¬ IsFullRows (answers page) := by
  constructor
  · intro h
    by_contra hall
    push Not at hall
    refine not_ends_of_invariant (fun s : NumberedState α => 1 ≤ s.page) ?_ le_rfl h
    intro s hs
    obtain ⟨s', hstep⟩ : ∃ s', (numberedLoop rows).step answers s = .inl s' :=
      numberedLoop_step_of_full (hall s.page hs)
    refine ⟨s', hstep, ?_⟩
    rw [(numberedLoop_step_inl hstep).2]
    omega
  · rintro ⟨last, hlast, hshort⟩
    apply ends_of_wellFounded (measure fun s : NumberedState α => last - s.page).wf
      fun s => s.page ≤ last
    · intro s s' hs hstep
      obtain ⟨hfull, hpage⟩ := numberedLoop_step_inl hstep
      have hne : s.page ≠ last := by
        rintro rfl
        exact hshort hfull
      refine ⟨by omega, ?_⟩
      show last - s'.page < last - s.page
      omega
    · exact hlast

end Numbered

/-- Which of the readers end on answers with finitely many cursors. -/
theorem paginated_readers_end_iff (threadAnswers : ThreadQuery → Option Value)
    (commentAnswers : ℕ → Option Value) (initialConnection : Value) (header : ObservationHeader)
    (stackAnswers : ℕ → Except String Value) (answers : ℕ → Option Value) (login : String) :
    ((threadCursors threadAnswers).Finite →
      (threadsLoop.Ends threadAnswers threadsStart ↔ ∃ number, ¬ GoesOn threadAnswers number)) ∧
    ((commentCursors commentAnswers).Finite →
      commentsLoop.Ends commentAnswers (commentsStart initialConnection)) ∧
    ((stackCursors stackAnswers).Finite → (stackLoop header).Ends stackAnswers stackStart) ∧
    ((listPendingReviews login).Ends answers (numberedStart Dict) ↔
      ∃ page, 1 ≤ page ∧ ¬ IsFullRows (answers page)) ∧
    (listPrFiles.Ends answers (numberedStart Dict) ↔
      ∃ page, 1 ≤ page ∧ ¬ IsFullRows (answers page)) ∧
    (listPrCommitShas.Ends answers (numberedStart String) ↔
      ∃ page, 1 ≤ page ∧ ¬ IsFullRows (answers page)) := by
  refine ⟨?_, ?_, ?_, ?_⟩
  · intro hfinite
    constructor
    · intro hends
      by_contra hall
      push Not at hall
      exact threadsLoop_not_ends hall hends
    · rintro ⟨last, hlast⟩
      exact threadsLoop_ends hfinite hlast
  · exact fun hfinite => commentsLoop_ends hfinite _
  · exact fun hfinite => stackLoop_ends header hfinite
  · rw [listPrFiles_eq]
    exact ⟨numberedLoop_ends_iff, numberedLoop_ends_iff, numberedLoop_ends_iff⟩

/-- Answers that are among these have finitely many cursors. -/
theorem threadCursors_finite (pages : List Value) {answers : ThreadQuery → Option Value}
    (h : ∀ query page, answers query = some page → page ∈ pages) :
    (threadCursors answers).Finite := by
  have hfinite := (pages.flatMap fun page =>
    (answeredConnections (fun _ => some page) (.page 0) ++
      answeredConnections (fun _ => some page) (.comments 0 0 0)).map
        fun connection => (commentPageState connection).2).finite_toSet
  refine hfinite.subset ?_
  rintro cursor ⟨query, connection, hconnection, rfl⟩
  cases hanswer : answers query with
  | none => cases query <;> simp [answeredConnections, answeredComments, hanswer] at hconnection
  | some page =>
      refine List.mem_flatMap.mpr ⟨page, h query page hanswer, List.mem_map.mpr ⟨connection, ?_, rfl⟩⟩
      rw [List.mem_append]
      cases query with
      | page number => exact Or.inl (by simpa [answeredConnections, hanswer] using hconnection)
      | comments page thread sent =>
          exact Or.inr (by simpa [answeredConnections, hanswer] using hconnection)

theorem commentCursors_finite (pages : List Value) {answers : ℕ → Option Value}
    (h : ∀ sent page, answers sent = some page → page ∈ pages) :
    (commentCursors answers).Finite := by
  have hfinite := (pages.flatMap fun page => (moreComments page).toList.map
    fun connection => (commentPageState connection).2).finite_toSet
  refine hfinite.subset ?_
  rintro cursor ⟨sent, connection, hconnection, rfl⟩
  obtain ⟨page, hanswer, hmore⟩ := Option.bind_eq_some_iff.mp hconnection
  refine List.mem_flatMap.mpr ⟨page, h sent page hanswer, List.mem_map.mpr ⟨connection, ?_, rfl⟩⟩
  exact Option.mem_toList.mpr hmore

theorem stackCursors_finite (pages : List Value) {answers : ℕ → Except String Value}
    (h : ∀ sent page, answers sent = .ok page → page ∈ pages) : (stackCursors answers).Finite := by
  have hfinite := (pages.flatMap fun page => (stackPullRequest page).toList.flatMap
    fun prPayload => (commentPageState ((prPayload.get "stack").field "entries")).2.toList
      ).finite_toSet
  refine hfinite.subset ?_
  rintro cursor ⟨sent, page, prPayload, hanswer, hpr, hcursor⟩
  refine List.mem_flatMap.mpr ⟨page, h sent page hanswer, List.mem_flatMap.mpr
    ⟨prPayload, Option.mem_toList.mpr hpr, Option.mem_toList.mpr hcursor⟩⟩

/-- An answer about a pull request. -/
def pullRequestAnswer (field : String) (value : Value) : Value :=
  .dict [("data", .dict [("repository", .dict [("pullRequest", .dict [(field, value)])])])]

/-- A thread whose comments go on after their first page. -/
def longThread : Value :=
  .dict [("id", .str "T"), ("comments", commentPage [commentBy "reviewer" "u0"] true "c0")]

/-- Pages of threads, the first and the last with a thread that has more comments. -/
def threadPages : List Value :=
  [commentPage [longThread] true "t0", commentPage [] true "t1",
    commentPage [longThread] false "t2"].map (pullRequestAnswer "reviewThreads")

/-- The pages of comments after the first. -/
def laterComments : List Value :=
  [commentsAnswer (commentPage [commentBy "author" "u1"] true "c1"),
    commentsAnswer (commentPage [commentBy "reviewer" "u2"] false "c2")]

def pagedThreads : ThreadQuery → Option Value
  | .page number => threadPages[number]?
  | .comments _ _ sent => laterComments[sent]?

/-- A page of a stack of three, with one member. -/
def stackPage (position : ℤ) (hasNextPage : Bool) (endCursor : String) : Value :=
  let member := .dict
    [("position", .int position), ("pullRequest", .dict [("number", .int position)])]
  pullRequestAnswer "stack" (.dict [("id", .str "S"), ("size", .int 3),
    ("entries", commentPage [member] hasNextPage endCursor)])

def stackPages : List Value :=
  [stackPage 1 true "s0", stackPage 2 true "s1", stackPage 3 false "s2"]

def pagedStack (sent : ℕ) : Except String Value := stackPages[sent]?.elim (.error "") .ok

/-- Two full pages of rows, and one with a single row. -/
def pagedRows (page : ℕ) : Option Value :=
  let row := .dict [("filename", .str "a.py"), ("sha", .str "f00"), ("state", .str "PENDING")]
  some (.list (List.replicate (if page < 3 then perPage else 1) row))

def firstComments : Value := commentPage [commentBy "reviewer" "u0"] true "c0"

/-- What the readers by cursors do before the last page. -/
theorem pagedReaders_go_on :
    (threadsLoop.after pagedThreads 6 threadsStart).isLeft = true ∧
    (commentsLoop.after (laterComments[·]?) 1 (commentsStart firstComments)).isLeft = true ∧
    ((stackLoop ⟨"o/r", "2", ""⟩).after pagedStack 2 stackStart).isLeft = true ∧
    ((pagedThreads (.page 2)).bind reviewThreads).all
      (fun threads => !(commentPageState threads).1) = true := by
  decide +kernel

theorem mem_pagedThreads {query : ThreadQuery} {page : Value} (h : pagedThreads query = some page) :
    page ∈ threadPages ++ laterComments := by
  rw [List.mem_append]
  cases query with
  | page number => exact Or.inl (List.mem_of_getElem? h)
  | comments _ _ sent => exact Or.inr (List.mem_of_getElem? h)

/-- Each reader follows the cursors or the numbers of its pages to the last one, and ends. -/
theorem paged_readers_end :
    ((threadsLoop.after pagedThreads 6 threadsStart).isLeft = true ∧
      threadsLoop.Ends pagedThreads threadsStart) ∧
    ((commentsLoop.after (laterComments[·]?) 1 (commentsStart firstComments)).isLeft = true ∧
      commentsLoop.Ends (laterComments[·]?) (commentsStart firstComments)) ∧
    (((stackLoop ⟨"o/r", "2", ""⟩).after pagedStack 2 stackStart).isLeft = true ∧
      (stackLoop ⟨"o/r", "2", ""⟩).Ends pagedStack stackStart) ∧
    (∀ page < 3, IsFullRows (pagedRows page)) ∧
    (listPendingReviews (some "me")).Ends pagedRows (numberedStart Dict) ∧
    listPrFiles.Ends pagedRows (numberedStart Dict) ∧
    listPrCommitShas.Ends pagedRows (numberedStart String) := by
  obtain ⟨hthreadsGo, hcommentsGo, hstackGo, hlast⟩ := pagedReaders_go_on
  obtain ⟨hthreads, hcomments, hstack, hreviews, hfiles, hcommits⟩ :=
    paginated_readers_end_iff pagedThreads (laterComments[·]?) firstComments ⟨"o/r", "2", ""⟩
      pagedStack pagedRows "me"
  have hshort : ∃ page, 1 ≤ page ∧ ¬ IsFullRows (pagedRows page) :=
    ⟨3, by omega, by simp [IsFullRows, pagedRows, perPage]⟩
  have hthreadPages : (threadCursors pagedThreads).Finite :=
    threadCursors_finite _ fun query page => mem_pagedThreads
  have hcommentPages : (commentCursors (laterComments[·]?)).Finite :=
    commentCursors_finite laterComments fun sent page => List.mem_of_getElem?
  have hstackPages : (stackCursors pagedStack).Finite := by
    refine stackCursors_finite stackPages fun sent page hanswer => ?_
    unfold pagedStack at hanswer
    cases hpage : stackPages[sent]? with
    | none => simp [hpage] at hanswer
    | some found =>
        simp only [hpage, Option.elim_some, Except.ok.injEq] at hanswer
        exact hanswer ▸ List.mem_of_getElem? hpage
  have hends : ¬ GoesOn pagedThreads 2 := by
    rintro ⟨threads, hpage, hnext, -⟩
    rw [hpage] at hlast
    simp [hnext] at hlast
  refine ⟨⟨hthreadsGo, (hthreads hthreadPages).mpr ⟨2, hends⟩⟩,
    ⟨hcommentsGo, hcomments hcommentPages⟩, ⟨hstackGo, hstack hstackPages⟩, ?_,
    hreviews.mpr hshort, hfiles.mpr hshort, hcommits.mpr hshort⟩
  intro page hpage
  exact ⟨_, by rw [pagedRows, if_pos hpage], by simp⟩

def repeatedPage : Value := pullRequestAnswer "reviewThreads" (commentPage [] true "c")

theorem repeatedPage_read : (reviewThreads repeatedPage).map
    (fun threads => ((commentPageState threads).1, connectionNodes threads)) =
      some (true, []) := by
  decide +kernel

theorem goesOn_repeatedPage (number : ℕ) : GoesOn (fun _ => some repeatedPage) number := by
  obtain ⟨threads, hthreads, hpair⟩ := Option.map_eq_some_iff.mp repeatedPage_read
  obtain ⟨hnext, hnodes⟩ := Prod.mk.inj hpair
  exact ⟨threads, hthreads, hnext, by rw [hnodes]; trivial⟩

/-- The reader of the threads asks for it for ever. -/
theorem repeated_page_never_ends :
    ¬ ∀ answers : ThreadQuery → Option Value, (threadCursors answers).Finite →
      threadsLoop.Ends answers threadsStart := by
  intro h
  refine threadsLoop_not_ends goesOn_repeatedPage (h _ (threadCursors_finite [repeatedPage] ?_))
  intro _ page hpage
  exact List.mem_singleton.mpr (Option.some.inj hpage).symm

end GhAddressCr
