import GhAddressCr.RequestLoops
import GhAddressCr.ThreadListing
import GhAddressCr.FinalGate

/-!
# Readers of pages

GitHub answers in pages, and a reader goes on for as long as a page says that another one
follows. The readers of a thread's comments and of a stack keep the cursors they have used and
stop at one they know. The reader of the threads does not.
-/
namespace GhAddressCr

open PyText RequestLoop

/-- Where the loop of `_load_thread_comments` is when it sends a query. -/
structure CommentsState where
  sent : ℕ
  seenCursors : List (Option String)
  connections : List Value

/-- The condition of the loop. -/
def continueComments (sent : ℕ) (seenCursors : List (Option String)) (connections : List Value)
    (state : Bool × Option String) : CommentsState ⊕ Option (List Value) :=
  if state.1 ∧ state.2 ∉ seenCursors then
    .inl { sent, seenCursors := state.2 :: seenCursors, connections }
  else .inr (some connections)

/-- The connection in an answer to a query for more comments; `none` where the reader raises. -/
def answeredComments (answer : Option Value) : Option Value := answer.bind moreComments

/-- `_load_thread_comments`, which returns `none` where it raises. -/
def commentsLoop : RequestLoop CommentsState ℕ (Option Value) (Option (List Value)) where
  request := CommentsState.sent
  receive s answer :=
    match answeredComments answer with
    | none => .inr none
    | some connection =>
        continueComments (s.sent + 1) s.seenCursors (s.connections ++ [connection])
          (commentPageState connection)

/-- The loop on a thread whose first comments came with the thread. -/
def commentsStart (initialConnection : Value) : CommentsState ⊕ Option (List Value) :=
  continueComments 0 [] [initialConnection] (commentPageState initialConnection)

/-- The cursors in the answers. -/
def commentCursors (answers : ℕ → Option Value) : Set (Option String) :=
  {cursor | ∃ sent connection, answeredComments (answers sent) = some connection ∧
    (commentPageState connection).2 = cursor}

theorem continueComments_inl {sent : ℕ} {seenCursors : List (Option String)}
    {connections : List Value} {state : Bool × Option String} {s : CommentsState}
    (h : continueComments sent seenCursors connections state = .inl s) :
    state.1 = true ∧ state.2 ∉ seenCursors ∧
      s = { sent, seenCursors := state.2 :: seenCursors, connections } := by
  unfold continueComments at h
  split at h
  · next hgoes => exact ⟨hgoes.1, hgoes.2, (Sum.inl.inj h).symm⟩
  · cases h

theorem commentsLoop_step_inl {answers : ℕ → Option Value} {s s' : CommentsState}
    (h : commentsLoop.step answers s = .inl s') :
    ∃ cursor ∈ commentCursors answers,
      cursor ∉ s.seenCursors ∧ s'.seenCursors = cursor :: s.seenCursors := by
  simp only [step, commentsLoop] at h
  cases hanswer : answeredComments (answers s.sent) with
  | none =>
      rw [hanswer] at h
      cases h
  | some connection =>
      rw [hanswer] at h
      obtain ⟨-, hfresh, rfl⟩ := continueComments_inl h
      exact ⟨_, ⟨s.sent, connection, hanswer, rfl⟩, hfresh, rfl⟩

/-- The reader of the comments of a thread uses no cursor twice. -/
theorem commentsLoop_ends {answers : ℕ → Option Value} (hfinite : (commentCursors answers).Finite)
    (start : CommentsState ⊕ Option (List Value)) : commentsLoop.Ends answers start := by
  cases start with
  | inl s =>
      apply ends_of_fresh CommentsState.seenCursors hfinite.toFinset _ s
      intro s s' h
      obtain ⟨cursor, hcursor, hfresh, hseen⟩ := commentsLoop_step_inl h
      exact ⟨cursor, hfinite.mem_toFinset.mpr hcursor, hfresh, hseen⟩
  | inr result => exact ends_inr result

/-- The connections of a thread's comments, in the order in which they are answered. -/
def connectionAt (initialConnection : Value) (answers : ℕ → Option Value) : ℕ → Value
  | 0 => initialConnection
  | k + 1 => (answeredComments (answers k)).getD .null

def cursorAt (initialConnection : Value) (answers : ℕ → Option Value) (k : ℕ) : Option String :=
  (commentPageState (connectionAt initialConnection answers k)).2

/-- The connection says that another one follows, with a cursor that none before it has named. -/
def IsFollowedAt (initialConnection : Value) (answers : ℕ → Option Value) (k : ℕ) : Prop :=
  (commentPageState (connectionAt initialConnection answers k)).1 = true ∧
    ∀ i < k, cursorAt initialConnection answers i ≠ cursorAt initialConnection answers k

/-- One of the queries for the comments of a thread is refused. -/
def IsRefused (initialConnection : Value) (answers : ℕ → Option Value) : Prop :=
  ∃ sent, (∀ k ≤ sent, IsFollowedAt initialConnection answers k) ∧
    answeredComments (answers sent) = none

/-- The loop when it sends this query. -/
def commentsAt (initialConnection : Value) (answers : ℕ → Option Value) (sent : ℕ) :
    CommentsState where
  sent
  seenCursors := ((List.range (sent + 1)).map (cursorAt initialConnection answers)).reverse
  connections := (List.range (sent + 1)).map (connectionAt initialConnection answers)

theorem continueComments_at {initialConnection : Value} {answers : ℕ → Option Value} (sent : ℕ) :
    continueComments sent ((List.range sent).map (cursorAt initialConnection answers)).reverse
        ((List.range (sent + 1)).map (connectionAt initialConnection answers))
        (commentPageState (connectionAt initialConnection answers sent)) =
      open scoped Classical in
      if IsFollowedAt initialConnection answers sent then
        .inl (commentsAt initialConnection answers sent)
      else .inr (some ((List.range (sent + 1)).map (connectionAt initialConnection answers))) := by
  have hfollowed : ((commentPageState (connectionAt initialConnection answers sent)).1 = true ∧
      (commentPageState (connectionAt initialConnection answers sent)).2 ∉
        ((List.range sent).map (cursorAt initialConnection answers)).reverse) ↔
      IsFollowedAt initialConnection answers sent := by
    simp [IsFollowedAt, cursorAt]
  unfold continueComments
  by_cases h : IsFollowedAt initialConnection answers sent
  · rw [if_pos h, if_pos (hfollowed.mpr h)]
    simp [commentsAt, List.range_succ, cursorAt]
  · rw [if_neg h, if_neg (hfollowed.not.mpr h)]

theorem commentsLoop_step_at {initialConnection connection : Value} {answers : ℕ → Option Value}
    {sent : ℕ} (hanswer : answeredComments (answers sent) = some connection) :
    commentsLoop.step answers (commentsAt initialConnection answers sent) =
      open scoped Classical in
      if IsFollowedAt initialConnection answers (sent + 1) then
        .inl (commentsAt initialConnection answers (sent + 1))
      else .inr (some ((List.range (sent + 2)).map (connectionAt initialConnection answers))) := by
  have hnext : connectionAt initialConnection answers (sent + 1) = connection := by
    simp [connectionAt, hanswer]
  rw [← continueComments_at (sent + 1)]
  simp only [step, commentsLoop, commentsAt, hanswer, hnext, List.range_succ (n := sent + 1),
    List.map_append, List.map_cons, List.map_nil]

/-- A connection that is followed came with an answer. -/
theorem answered_of_followed {initialConnection : Value} {answers : ℕ → Option Value} {k : ℕ}
    (h : IsFollowedAt initialConnection answers (k + 1)) :
    ∃ connection, answeredComments (answers k) = some connection := by
  rw [← Option.isSome_iff_exists]
  by_contra hnone
  have hnull : connectionAt initialConnection answers (k + 1) = .null := by
    simp [connectionAt, Option.not_isSome_iff_eq_none.mp hnone]
  have hstate := h.1
  rw [hnull] at hstate
  simp [commentPageState, Value.field, Value.toDict?] at hstate

theorem commentsLoop_step_refused {answers : ℕ → Option Value} {s : CommentsState}
    (h : answeredComments (answers s.sent) = none) :
    commentsLoop.step answers s = .inr none := by
  simp only [step, commentsLoop, h]

/-- A loop that is going to be refused raises when it is. -/
theorem commentsLoop_raises_of_refused {initialConnection : Value} {answers : ℕ → Option Value}
    {sent more : ℕ} (hasked : ∀ k ≤ sent + more, IsFollowedAt initialConnection answers k)
    (hrefused : answeredComments (answers (sent + more)) = none) :
    commentsLoop.Returns answers (.inl (commentsAt initialConnection answers sent)) none := by
  induction more generalizing sent with
  | zero => rw [returns_inl, commentsLoop_step_refused hrefused, returns_inr]
  | succ more ih =>
      have hnext := hasked (sent + 1) (by omega)
      obtain ⟨connection, hanswer⟩ := answered_of_followed hnext
      rw [returns_inl, commentsLoop_step_at hanswer, if_pos hnext]
      have hsame : sent + 1 + more = sent + (more + 1) := by omega
      apply ih
      · rwa [hsame]
      · rwa [hsame]

theorem commentsLoop_raises_at {initialConnection : Value} {answers : ℕ → Option Value}
    {sent : ℕ} (hasked : ∀ k ≤ sent, IsFollowedAt initialConnection answers k) :
    commentsLoop.Returns answers (.inl (commentsAt initialConnection answers sent)) none ↔
      IsRefused initialConnection answers := by
  constructor
  · rintro ⟨n, h⟩
    induction n generalizing sent with
    | zero => simp at h
    | succ n ih =>
        rw [after_succ] at h
        cases hanswer : answeredComments (answers sent) with
        | none => exact ⟨sent, hasked, hanswer⟩
        | some connection =>
            rw [commentsLoop_step_at hanswer] at h
            split_ifs at h with hnext
            · refine ih (fun k hk => ?_) h
              rcases Nat.le_succ_iff.mp hk with hk | rfl
              · exact hasked k hk
              · exact hnext
            · simp at h
  · rintro ⟨last, hlast, hrefused⟩
    have hbefore : sent ≤ last := by
      by_contra hafter
      obtain ⟨connection, hanswer⟩ := answered_of_followed (hasked (last + 1) (by omega))
      rw [hrefused] at hanswer
      cases hanswer
    obtain ⟨more, rfl⟩ := Nat.exists_eq_add_of_le hbefore
    exact commentsLoop_raises_of_refused hlast hrefused

/-- The reader of the comments of a thread raises exactly when a query of its is refused. -/
theorem commentsLoop_raises_iff (initialConnection : Value) (answers : ℕ → Option Value) :
    commentsLoop.Returns answers (commentsStart initialConnection) none ↔
      IsRefused initialConnection answers := by
  have hstart := @continueComments_at initialConnection answers 0
  unfold commentsStart
  simp only [List.range_zero, List.map_nil, List.reverse_nil, zero_add, List.range_one,
    List.map_cons, connectionAt] at hstart
  rw [hstart]
  split_ifs with hfirst
  · exact commentsLoop_raises_at fun k hk => by rwa [Nat.le_zero.mp hk]
  · simp only [returns_inr, reduceCtorEq, false_iff]
    rintro ⟨sent, hasked, -⟩
    exact hfirst (hasked 0 (Nat.zero_le _))

/-- What `list_threads` asks for: a page, or more comments of a thread of a page. -/
inductive ThreadQuery where
  | page (number : ℕ)
  | comments (page thread sent : ℕ)

/-- Where the loop over the threads of a page is: the thread it reads, those to come, and what
the page says about a next one. -/
structure PagePosition where
  page : ℕ
  thread : ℕ
  node : Dict
  nodes : List Dict
  hasNextPage : Bool
  readings : List ThreadReading

/-- Where `list_threads` is when it sends a query. -/
inductive ThreadsState where
  | page (number : ℕ) (readings : List ThreadReading)
  | comments (position : PagePosition) (loop : CommentsState)

/-- The comments of a thread, as far as they came with it. -/
def nodeComments (node : Dict) : CommentsState ⊕ Option (List Value) :=
  if (node.get "comments").toDict?.isSome then commentsStart (node.get "comments")
  else .inr (some [])

/-- The threads of a page from one on: up to a query for comments, or to the end of the page. -/
def readNodes (page : ℕ) (hasNextPage : Bool) :
    ℕ → List Dict → List ThreadReading → ThreadsState ⊕ Option (List ThreadReading)
  | _, [], readings =>
      if hasNextPage then .inl (.page (page + 1) readings) else .inr (some readings)
  | thread, node :: nodes, readings =>
      if !node.has "id" then .inr none
      else
        match nodeComments node with
        | .inl loop => .inl (.comments { page, thread, node, nodes, hasNextPage, readings } loop)
        | .inr none => .inr none
        | .inr (some connections) =>
            readNodes page hasNextPage (thread + 1) nodes (readings ++ [{ node, connections }])

/-- What follows when the comments of a thread have been read. -/
def leaveComments (position : PagePosition) :
    CommentsState ⊕ Option (List Value) → ThreadsState ⊕ Option (List ThreadReading)
  | .inl loop => .inl (.comments position loop)
  | .inr none => .inr none
  | .inr (some connections) =>
      readNodes position.page position.hasNextPage (position.thread + 1) position.nodes
        (position.readings ++ [{ node := position.node, connections }])

/-- The loop of `list_threads`, which returns `none` where it raises. -/
def threadsLoop :
    RequestLoop ThreadsState ThreadQuery (Option Value) (Option (List ThreadReading)) where
  request
    | .page number _ => .page number
    | .comments position loop => .comments position.page position.thread loop.sent
  receive
    | .page number readings, answer =>
        match answer.bind reviewThreads with
        | none => .inr none
        | some threads =>
            readNodes number (commentPageState threads).1 0 (connectionNodes threads) readings
    | .comments position loop, answer => leaveComments position (commentsLoop.receive loop answer)

def threadsStart : ThreadsState ⊕ Option (List ThreadReading) := .inl (.page 0 [])

theorem readNodes_cons {page thread : ℕ} {hasNextPage : Bool} {node : Dict} {nodes : List Dict}
    {readings : List ThreadReading} (h : node.has "id" = true) :
    readNodes page hasNextPage thread (node :: nodes) readings =
      leaveComments { page, thread, node, nodes, hasNextPage, readings } (nodeComments node) := by
  rw [readNodes, h]
  rcases nodeComments node with loop | _ | connections <;> rfl

theorem loadMoreComments_cons (seenCursors : List (Option String)) (state : Bool × Option String)
    (response : Option Value) (responses : Responses) :
    loadMoreComments seenCursors state (response :: responses) =
      if state.1 ∧ state.2 ∉ seenCursors then
        (response.bind moreComments).bind fun connection =>
          (loadMoreComments (state.2 :: seenCursors) (commentPageState connection) responses).map
            fun (connections, rest) => (connection :: connections, rest)
      else some ([], response :: responses) := by
  rw [loadMoreComments]
  congr 1
  cases response with
  | none => rfl
  | some payload =>
      show (moreComments payload >>= fun connection =>
        loadMoreComments (state.2 :: seenCursors) (commentPageState connection) responses >>=
          fun rest => pure (connection :: rest.1, rest.2)) = _
      cases hconnection : moreComments payload with
      | none => simp [hconnection]
      | some connection =>
          rcases hrest : loadMoreComments (state.2 :: seenCursors) (commentPageState connection)
            responses with _ | ⟨connections, rest⟩ <;> simp [hconnection, hrest]

/-- The loop over the comments of a thread takes the answers that `_load_thread_comments` takes. -/
theorem feed_leaveComments {position : PagePosition} {responses : Responses} {sent : ℕ}
    {seenCursors : List (Option String)} {connections : List Value} {state : Bool × Option String}
    {result : List ThreadReading} :
    threadsLoop.feed (leaveComments position (continueComments sent seenCursors connections state))
        responses = .inr (some result) ↔
      ∃ more rest, loadMoreComments seenCursors state responses = some (more, rest) ∧
        threadsLoop.feed (leaveComments position (.inr (some (connections ++ more)))) rest =
          .inr (some result) := by
  induction responses generalizing sent seenCursors connections state with
  | nil =>
      unfold continueComments loadMoreComments
      split_ifs with hgoes
      · simp [leaveComments]
      · simp
  | cons response responses ih =>
      rw [loadMoreComments_cons]
      unfold continueComments
      split_ifs with hgoes
      · show threadsLoop.feed (leaveComments position (commentsLoop.receive
          { sent, seenCursors := state.2 :: seenCursors, connections } response)) responses = _ ↔ _
        cases hanswer : response.bind moreComments with
        | none => simp [commentsLoop, answeredComments, hanswer, leaveComments]
        | some connection =>
            simp only [commentsLoop, answeredComments, hanswer, ih, Option.bind_some]
            constructor
            · rintro ⟨more, rest, hmore, hrest⟩
              exact ⟨connection :: more, rest, by rw [hmore]; rfl, by simpa using hrest⟩
            · rintro ⟨all, rest, hall, hrest⟩
              obtain ⟨⟨more, left⟩, hmore, hpair⟩ := Option.map_eq_some_iff.mp hall
              obtain ⟨rfl, rfl⟩ := Prod.mk.inj hpair
              exact ⟨more, left, hmore, by simpa using hrest⟩
      · simp

theorem feed_nodeComments {position : PagePosition} {node : Dict} {responses : Responses}
    {result : List ThreadReading} :
    threadsLoop.feed (leaveComments position (nodeComments node)) responses = .inr (some result) ↔
      ∃ connections rest, threadConnections node responses = some (connections, rest) ∧
        threadsLoop.feed (leaveComments position (.inr (some connections))) rest =
          .inr (some result) := by
  unfold nodeComments threadConnections
  split_ifs with hcomments
  · unfold commentsStart loadThreadComments
    rw [feed_leaveComments]
    constructor
    · rintro ⟨more, rest, hmore, hrest⟩
      exact ⟨node.get "comments" :: more, rest, by rw [hmore]; rfl, hrest⟩
    · rintro ⟨connections, rest, hconnections, hrest⟩
      obtain ⟨⟨more, left⟩, hmore, hpair⟩ := Option.map_eq_some_iff.mp hconnections
      obtain ⟨rfl, rfl⟩ := Prod.mk.inj hpair
      exact ⟨more, left, hmore, hrest⟩
  · simp

/-- The threads of a page take the answers that `readThreads` takes. -/
theorem feed_readNodes {page thread : ℕ} {hasNextPage : Bool} {nodes : List Dict}
    {readings result : List ThreadReading} {responses : Responses} :
    threadsLoop.feed (readNodes page hasNextPage thread nodes readings) responses =
        .inr (some result) ↔
      ∃ more rest, readThreads nodes responses = some (more, rest) ∧
        threadsLoop.feed (readNodes page hasNextPage 0 [] (readings ++ more)) rest =
          .inr (some result) := by
  induction nodes generalizing thread readings responses with
  | nil => simp [readThreads, readNodes]
  | cons node nodes ih =>
      by_cases hid : node.has "id" = true
      · obtain ⟨value, hvalue⟩ := Option.isSome_iff_exists.mp hid
        rw [readNodes_cons hid, feed_nodeComments]
        simp only [leaveComments, ih, readThreads, hvalue]
        constructor
        · rintro ⟨connections, left, hconnections, more, rest, hmore, hrest⟩
          exact ⟨{ node, connections } :: more, rest, by simp [hconnections, hmore],
            by simpa using hrest⟩
        · rintro ⟨all, rest, hall, hrest⟩
          obtain ⟨_, -, hall⟩ := Option.bind_eq_some_iff.mp hall
          obtain ⟨⟨connections, left⟩, hconnections, hall⟩ := Option.bind_eq_some_iff.mp hall
          obtain ⟨⟨more, last⟩, hmore, hpair⟩ := Option.bind_eq_some_iff.mp hall
          obtain ⟨rfl, rfl⟩ := Prod.mk.inj (Option.some.inj hpair)
          exact ⟨connections, left, hconnections, more, last, hmore, by simpa using hrest⟩
      · have hnone : node["id"]? = none := by simpa [Dict.has] using hid
        simp [readNodes, hid, readThreads, hnone]

theorem receive_page {number : ℕ} {readings : List ThreadReading} {answer : Option Value}
    {threads : Value} (h : answer.bind reviewThreads = some threads) :
    threadsLoop.receive (.page number readings) answer =
      readNodes number (commentPageState threads).1 0 (connectionNodes threads) readings := by
  simp only [threadsLoop, h]

theorem receive_page_refused {number : ℕ} {readings : List ThreadReading} {answer : Option Value}
    (h : answer.bind reviewThreads = none) :
    threadsLoop.receive (.page number readings) answer = .inr none := by
  simp only [threadsLoop, h]

theorem readThreadPages_cons (fuel : ℕ) (response : Option Value) (responses : Responses) :
    readThreadPages (fuel + 1) (response :: responses) =
      (response.bind reviewThreads).bind fun threads =>
        (readThreads (connectionNodes threads) responses).bind fun (readings, rest) =>
          if (commentPageState threads).1 then (readThreadPages fuel rest).map (readings ++ ·)
          else some readings := by
  rw [readThreadPages]
  cases response with
  | none => rfl
  | some payload =>
      cases hthreads : reviewThreads payload with
      | none => simp [hthreads]
      | some threads =>
          rcases hpage : readThreads (connectionNodes threads) responses with _ | ⟨readings, rest⟩
          · simp [hthreads, hpage]
          · rcases hmore : readThreadPages fuel rest with _ | more <;>
              simp [hthreads, hpage, hmore]

/-- Pages need as much fuel as there are answers. -/
theorem readThreadPages_iff_feed {fuel number : ℕ} {responses : Responses}
    {readings result : List ThreadReading} (hfuel : responses.length ≤ fuel) :
    threadsLoop.feed (.inl (.page number readings)) responses = .inr (some result) ↔
      ∃ more, readThreadPages fuel responses = some more ∧ readings ++ more = result := by
  induction fuel generalizing number responses readings with
  | zero =>
      obtain rfl := List.length_eq_zero_iff.mp (Nat.le_zero.mp hfuel)
      simp [readThreadPages]
  | succ fuel ih =>
      cases responses with
      | nil => simp [readThreadPages]
      | cons response responses =>
          rw [feed_inl_cons, readThreadPages_cons]
          cases hthreads : response.bind reviewThreads with
          | none => simp [receive_page_refused hthreads]
          | some threads =>
              rw [receive_page hthreads, feed_readNodes, Option.bind_some]
              rcases hpage : readThreads (connectionNodes threads) responses with _ | ⟨page, rest⟩
              · simp
              · have hlength := readThreads_length hpage
                rw [List.length_cons] at hfuel
                simp only [Option.bind_some, Option.some.injEq, Prod.mk.injEq, readNodes,
                  and_assoc, exists_and_left, exists_eq_left']
                split_ifs with hnext
                · rw [ih (by omega)]
                  simp
                · simp

/-- The loop comes to the threads that `list_threads` reads in the answers. -/
theorem threadReadings_iff_feed {responses : Responses} {readings : List ThreadReading} :
    threadReadings responses = some readings ↔
      threadsLoop.feed threadsStart responses = .inr (some readings) := by
  unfold threadReadings threadsStart
  rw [readThreadPages_iff_feed le_rfl]
  simp

/-- The answers to the queries for the comments of a thread. -/
def commentAnswers (answers : ThreadQuery → Option Value) (page thread sent : ℕ) : Option Value :=
  answers (.comments page thread sent)

/-- Each of these threads of a page has an id, and no query for its comments is refused. -/
def Readable (answers : ThreadQuery → Option Value) (page : ℕ) : ℕ → List Dict → Prop
  | _, [] => True
  | thread, node :: nodes =>
      (node.has "id" = true ∧
        ¬ IsRefused (node.get "comments") (commentAnswers answers page thread)) ∧
          Readable answers page (thread + 1) nodes

/-- The page comes, its threads can be read, and it says that another one follows. -/
def GoesOn (answers : ThreadQuery → Option Value) (number : ℕ) : Prop :=
  ∃ threads, (answers (.page number)).bind reviewThreads = some threads ∧
    (commentPageState threads).1 = true ∧ Readable answers number 0 (connectionNodes threads)

/-- What is left of a page can be read when its comments come from here, and a page follows. -/
def GoesOnFrom (answers : ThreadQuery → Option Value) (position : PagePosition)
    (comments : CommentsState ⊕ Option (List Value)) : Prop :=
  position.hasNextPage = true ∧
    ¬ commentsLoop.Returns (commentAnswers answers position.page position.thread) comments none ∧
      Readable answers position.page (position.thread + 1) position.nodes

/-- The page that is being read will be followed by the next. -/
def GoingOn (answers : ThreadQuery → Option Value) : ThreadsState → Prop
  | .page number _ => GoesOn answers number
  | .comments position loop => GoesOnFrom answers position (.inl loop)

/-- The reader has gone on on a page, or to the next if the page goes on; where it returns, the
page does not. -/
def Advances (answers : ThreadQuery → Option Value) (page size : ℕ) (goesOn : Prop) :
    ThreadsState ⊕ Option (List ThreadReading) → Prop
  | .inl (.page number _) => number = page + 1 ∧ goesOn
  | .inl (.comments position loop) =>
      position.page = page ∧ position.nodes.length < size ∧
        (GoesOnFrom answers position (.inl loop) ↔ goesOn)
  | .inr _ => ¬ goesOn

theorem nodeComments_raises_iff (node : Dict) (answers : ℕ → Option Value) :
    commentsLoop.Returns answers (nodeComments node) none ↔
      IsRefused (node.get "comments") answers := by
  unfold nodeComments
  split_ifs with hcomments
  · exact commentsLoop_raises_iff _ _
  · have hstate : commentPageState (node.get "comments") = (false, none) := by
      rw [commentPageState, Value.field, Option.not_isSome_iff_eq_none.mp hcomments]
      rfl
    simp only [returns_inr, Option.some_ne_none, false_iff]
    rintro ⟨sent, hasked, -⟩
    have hfirst := (hasked 0 (Nat.zero_le _)).1
    rw [connectionAt, hstate] at hfirst
    cases hfirst

section Advance

variable {answers : ThreadQuery → Option Value}

theorem Advances.mono {page size larger : ℕ} {goesOn : Prop}
    {outcome : ThreadsState ⊕ Option (List ThreadReading)}
    (h : Advances answers page size goesOn outcome) (hsize : size ≤ larger) :
    Advances answers page larger goesOn outcome := by
  rcases outcome with (⟨number, readings⟩ | ⟨position, loop⟩) | result
  · exact h
  · obtain ⟨hpage, hless, hgoes⟩ := h
    exact ⟨hpage, Nat.lt_of_lt_of_le hless hsize, hgoes⟩
  · exact h

theorem leaveComments_advances {position : PagePosition}
    (hnext : ∀ readings, Advances answers position.page position.nodes.length
      (position.hasNextPage = true ∧
        Readable answers position.page (position.thread + 1) position.nodes)
      (readNodes position.page position.hasNextPage (position.thread + 1) position.nodes readings))
    (comments : CommentsState ⊕ Option (List Value)) :
    Advances answers position.page (position.nodes.length + 1)
      (GoesOnFrom answers position comments) (leaveComments position comments) := by
  rcases comments with loop | _ | connections
  · exact ⟨rfl, Nat.lt_succ_self _, Iff.rfl⟩
  · simp [leaveComments, Advances, GoesOnFrom]
  · have hrest := hnext (position.readings ++ [{ node := position.node, connections }])
    have hgoes : GoesOnFrom answers position (.inr (some connections)) ↔
        position.hasNextPage = true ∧
          Readable answers position.page (position.thread + 1) position.nodes := by
      simp [GoesOnFrom]
    rw [propext hgoes]
    exact hrest.mono (Nat.le_succ _)

theorem readNodes_advances (page thread : ℕ) (hasNextPage : Bool) (nodes : List Dict)
    (readings : List ThreadReading) :
    Advances answers page nodes.length
      (hasNextPage = true ∧ Readable answers page thread nodes)
      (readNodes page hasNextPage thread nodes readings) := by
  induction nodes generalizing thread readings with
  | nil =>
      unfold readNodes
      split_ifs with hnext
      · exact ⟨rfl, hnext, trivial⟩
      · simp [Advances, hnext]
  | cons node nodes ih =>
      by_cases hid : node.has "id" = true
      · rw [readNodes_cons hid]
        have hgoes : (hasNextPage = true ∧ Readable answers page thread (node :: nodes)) ↔
            GoesOnFrom answers { page, thread, node, nodes, hasNextPage, readings }
              (nodeComments node) := by
          simp [Readable, GoesOnFrom, hid, nodeComments_raises_iff]
        rw [propext hgoes]
        exact leaveComments_advances (fun readings => ih (thread + 1) readings) _
      · simp [readNodes, Advances, Readable, hid]

theorem step_page_advances (number : ℕ) (readings : List ThreadReading) :
    ∃ size, Advances answers number size (GoesOn answers number)
      (threadsLoop.step answers (.page number readings)) := by
  show ∃ size, Advances answers number size _
    (threadsLoop.receive (.page number readings) (answers (.page number)))
  cases hthreads : (answers (.page number)).bind reviewThreads with
  | none =>
      rw [receive_page_refused hthreads]
      refine ⟨0, ?_⟩
      rintro ⟨threads, hsome, -⟩
      rw [hthreads] at hsome
      cases hsome
  | some threads =>
      rw [receive_page hthreads]
      have hgoes : GoesOn answers number ↔ (commentPageState threads).1 = true ∧
          Readable answers number 0 (connectionNodes threads) := by
        simp [GoesOn, hthreads]
      rw [propext hgoes]
      exact ⟨_, readNodes_advances ..⟩

theorem step_comments (position : PagePosition) (loop : CommentsState) :
    threadsLoop.step answers (.comments position loop) =
      leaveComments position
        (commentsLoop.step (commentAnswers answers position.page position.thread) loop) := rfl

theorem step_comments_advances (position : PagePosition) (loop : CommentsState) :
    Advances answers position.page (position.nodes.length + 1)
      (GoesOnFrom answers position (.inl loop))
      (threadsLoop.step answers (.comments position loop)) := by
  have hgoes : GoesOnFrom answers position (.inl loop) ↔ GoesOnFrom answers position
      (commentsLoop.step (commentAnswers answers position.page position.thread) loop) := by
    unfold GoesOnFrom
    rw [returns_inl]
  rw [step_comments, propext hgoes]
  exact leaveComments_advances (fun readings => readNodes_advances ..) _

/-- A page that goes on is read up to the next. -/
theorem step_goingOn (hpages : ∀ number, GoesOn answers number) {s : ThreadsState}
    (hs : GoingOn answers s) :
    ∃ s', threadsLoop.step answers s = .inl s' ∧ GoingOn answers s' := by
  have hadvance : ∃ page size, Advances answers page size (GoingOn answers s)
      (threadsLoop.step answers s) := by
    cases s with
    | page number readings => exact ⟨number, step_page_advances number readings⟩
    | comments position loop => exact ⟨_, _, step_comments_advances position loop⟩
  obtain ⟨page, size, hadvance⟩ := hadvance
  rcases hstep : threadsLoop.step answers s with (⟨number, readings⟩ | ⟨position, loop⟩) | result
  · exact ⟨_, rfl, hpages number⟩
  · rw [hstep] at hadvance
    exact ⟨_, rfl, hadvance.2.2.mpr hs⟩
  · rw [hstep] at hadvance
    exact absurd hs hadvance

theorem threadsLoop_not_ends (hpages : ∀ number, GoesOn answers number) :
    ¬ threadsLoop.Ends answers threadsStart :=
  not_ends_of_invariant (GoingOn answers) (fun _ => step_goingOn hpages) (hpages 0)

/-- The connections in an answer. -/
def answeredConnections (answers : ThreadQuery → Option Value) : ThreadQuery → List Value
  | .page number =>
      match (answers (.page number)).bind reviewThreads with
      | none => []
      | some threads => threads :: (connectionNodes threads).map (·.get "comments")
  | .comments page thread sent => (answeredComments (answers (.comments page thread sent))).toList

/-- The cursors in the answers. -/
def threadCursors (answers : ThreadQuery → Option Value) : Set (Option String) :=
  {cursor | ∃ query, ∃ connection ∈ answeredConnections answers query,
    (commentPageState connection).2 = cursor}

theorem commentCursors_subset (page thread : ℕ) :
    commentCursors (commentAnswers answers page thread) ⊆ threadCursors answers := by
  rintro cursor ⟨sent, connection, hanswer, hcursor⟩
  exact ⟨.comments page thread sent, connection, Option.mem_toList.mpr hanswer, hcursor⟩

def ThreadsState.pageNumber : ThreadsState → ℕ
  | .page number _ => number
  | .comments position _ => position.page

/-- The reader has not got past a page that does not go on. -/
def StopsAt (answers : ThreadQuery → Option Value) (last : ℕ) (s : ThreadsState) : Prop :=
  s.pageNumber ≤ last ∧ (s.pageNumber = last → ¬ GoingOn answers s)

theorem Advances.stopsAt {page size last : ℕ} {goesOn : Prop} {s : ThreadsState}
    (h : Advances answers page size goesOn (.inl s)) (hlast : ¬ GoesOn answers last)
    (hpage : page ≤ last) (hstop : page = last → ¬ goesOn) : StopsAt answers last s := by
  cases s with
  | page number readings =>
      obtain ⟨rfl, hgoes⟩ := h
      have hne : page ≠ last := fun heq => hstop heq hgoes
      refine ⟨by show page + 1 ≤ last; omega, ?_⟩
      intro heq
      show ¬ GoesOn answers (page + 1)
      have heq : page + 1 = last := heq
      rwa [heq]
  | comments position loop =>
      obtain ⟨rfl, -, hgoes⟩ := h
      exact ⟨hpage, fun heq hgoing => hstop heq (hgoes.mp hgoing)⟩

/-- What is left to do up to a page: pages, threads of a page, and cursors of a thread. -/
def remaining (keys : Finset (Option String)) (last : ℕ) : ThreadsState → ℕ × ℕ × ℕ
  | .page number _ => (2 * (last - number) + 1, 0, 0)
  | .comments position loop =>
      (2 * (last - position.page), position.nodes.length, unseen keys loop.seenCursors)

/-- The order of `remaining`. -/
def Less : ℕ × ℕ × ℕ → ℕ × ℕ × ℕ → Prop := Prod.Lex (· < ·) (Prod.Lex (· < ·) (· < ·))

theorem less_wellFounded : WellFounded Less :=
  wellFounded_lt.prod_lex (wellFounded_lt.prod_lex wellFounded_lt)

theorem Advances.less_page {page size last next : ℕ} {goesOn : Prop}
    {keys : Finset (Option String)} {readings : List ThreadReading} {left : ℕ} {rest : ℕ × ℕ}
    (h : Advances answers page size goesOn (.inl (.page next readings))) (hpage : page ≤ last)
    (hstop : page = last → ¬ goesOn) (hleft : 2 * (last - page) ≤ left) :
    Less (remaining keys last (.page next readings)) (left, rest) := by
  obtain ⟨rfl, hgoes⟩ := h
  have hne : page ≠ last := fun heq => hstop heq hgoes
  apply Prod.Lex.left
  omega

theorem step_stopsAt (hfinite : (threadCursors answers).Finite) {last : ℕ}
    (hlast : ¬ GoesOn answers last) {s s' : ThreadsState} (hs : StopsAt answers last s)
    (hstep : threadsLoop.step answers s = .inl s') :
    StopsAt answers last s' ∧
      Less (remaining hfinite.toFinset last s') (remaining hfinite.toFinset last s) := by
  obtain ⟨hpage, hstop⟩ := hs
  cases s with
  | page number readings =>
      obtain ⟨size, hadvance⟩ := @step_page_advances answers number readings
      rw [hstep] at hadvance
      refine ⟨hadvance.stopsAt hlast hpage hstop, ?_⟩
      cases s' with
      | page next readings' => exact hadvance.less_page hpage hstop (Nat.le_succ _)
      | comments position loop =>
          obtain ⟨rfl, -⟩ := hadvance
          exact Prod.Lex.left _ _ (Nat.lt_succ_self _)
  | comments position loop =>
      have hadvance := @step_comments_advances answers position loop
      rw [hstep] at hadvance
      refine ⟨hadvance.stopsAt hlast hpage hstop, ?_⟩
      cases s' with
      | page next readings => exact hadvance.less_page hpage hstop le_rfl
      | comments later loop' =>
          rw [step_comments] at hstep
          rcases houtcome : commentsLoop.step
            (commentAnswers answers position.page position.thread) loop with next | _ | connections
          · -- another query for the same thread, with a cursor that is new
            rw [houtcome] at hstep
            obtain ⟨rfl, rfl⟩ : position = later ∧ next = loop' := by
              simpa [leaveComments] using hstep
            obtain ⟨cursor, hcursor, hfresh, hseen⟩ := commentsLoop_step_inl houtcome
            have hkey := hfinite.mem_toFinset.mpr (commentCursors_subset _ _ hcursor)
            apply Prod.Lex.right
            apply Prod.Lex.right
            rw [hseen]
            exact unseen_cons_lt hkey hfresh
          · rw [houtcome] at hstep
            cases hstep
          · -- a thread that comes after it
            rw [houtcome] at hstep
            have hlater := @readNodes_advances answers position.page (position.thread + 1)
              position.hasNextPage position.nodes
              (position.readings ++ [{ node := position.node, connections }])
            have hstep : readNodes position.page position.hasNextPage (position.thread + 1)
              position.nodes (position.readings ++ [{ node := position.node, connections }]) =
                .inl (.comments later loop') := hstep
            rw [hstep] at hlater
            obtain ⟨hsame, hless, -⟩ := hlater
            rw [Less, remaining, remaining, hsame]
            exact Prod.Lex.right _ (Prod.Lex.left _ _ hless)

/-- The reader of the threads ends when it comes to a page that does not go on. -/
theorem threadsLoop_ends (hfinite : (threadCursors answers).Finite) {last : ℕ}
    (hlast : ¬ GoesOn answers last) : threadsLoop.Ends answers threadsStart := by
  apply ends_of_wellFounded (InvImage.wf (remaining hfinite.toFinset last) less_wellFounded)
    (StopsAt answers last)
  · exact fun s s' hs hstep => step_stopsAt hfinite hlast hs hstep
  · refine ⟨Nat.zero_le _, ?_⟩
    rintro (rfl : 0 = last)
    exact hlast

end Advance

end GhAddressCr
