import GhAddressCr.RequestDocuments

/-!
# Listing review threads

The threads of a pull request are read page by page, and so are the comments of each thread. A
row reports whether the viewer has replied, which the publisher takes as proof that an unknown
reply was never posted.
-/
namespace GhAddressCr

open PyText

/-- `_connection_nodes`. -/
def connectionNodes (value : Value) : List Dict :=
  match value.field "nodes" with
  | .list nodes => nodes.filterMap Value.toDict?
  | _ => []

/-- `_comment_page_state`: whether there is a next page, and the cursor to ask for it. -/
def commentPageState (connection : Value) : Bool × Option String :=
  match ((connection.field "pageInfo").toDict?) with
  | none => (false, none)
  | some pageInfo =>
      ((pageInfo.get "hasNextPage").truthy,
        match pageInfo.get "endCursor" with
        | .str cursor => if cursor = "" then none else some cursor
        | _ => none)

/-- What `_read_json` returns for the queries to come; `none` where it raises. -/
abbrev Responses := List (Option Value)

/-- The comments in the answer to a query for more of them; `none` where an `AttributeError`
escapes. -/
def moreComments (payload : Value) : Option Value := do
  let payload ← payload.toDict?
  let data ← ((payload.get "data").orElse (.dict [])).toDict?
  return ((data.get "node").orElse (.dict [])).field "comments"

/-- The connections that the loop of `_load_thread_comments` reads, and the responses it leaves;
`none` where it raises. -/
def loadMoreComments (seenCursors : List (Option String)) (state : Bool × Option String) :
    Responses → Option (List Value × Responses)
  | [] => if state.1 ∧ state.2 ∉ seenCursors then none else some ([], [])
  | response :: responses =>
      if state.1 ∧ state.2 ∉ seenCursors then do
        let connection ← moreComments (← response)
        let (connections, rest) ←
          loadMoreComments (state.2 :: seenCursors) (commentPageState connection) responses
        return (connection :: connections, rest)
      else some ([], response :: responses)

/-- `_load_thread_comments`: the connections its comments come from. -/
def loadThreadComments (initialConnection : Value) (responses : Responses) :
    Option (List Value × Responses) :=
  (loadMoreComments [] (commentPageState initialConnection) responses).map
    fun (connections, rest) => (initialConnection :: connections, rest)

/-- A thread and the connections its comments were read from; none if it has no `comments`. -/
structure ThreadReading where
  node : Dict
  connections : List Value
  deriving DecidableEq

namespace ThreadReading

def comments (reading : ThreadReading) : List Dict := reading.connections.flatMap connectionNodes

end ThreadReading

/-- `author.login` of a comment. -/
def authorLogin (comment : Dict) : Value := (comment.get "author").field "login"

/-- The comment is by this login and has the url that a reply is known by. -/
def isViewerReply (viewerLogin : String) (comment : Dict) : Bool :=
  authorLogin comment = .str viewerLogin &&
    match comment.get "url" with
    | .str url => strip url != ""
    | _ => false

/-- `_viewer_reply_evidence`: the url of the viewer's last reply. -/
def viewerReplyEvidence (comments : List Dict) (viewerLogin : String) : Value :=
  if viewerLogin = "" then .null
  else (((comments.drop 1).filter (isViewerReply viewerLogin)).getLast?.map (·.get "url")).getD .null

def optionalLogin (comment : Dict) : Option Value :=
  match authorLogin comment with
  | .str login => if login = "" then none else some (.str login)
  | _ => none

/-- The row of a thread. -/
def threadRow (viewerLogin : String) (reading : ThreadReading) : Dict :=
  let node := reading.node
  let latest := connectionNodes (node.get "latestComment")
  let first := connectionNodes (node.get "firstComment")
  let latestNode := latest.head?.getD ∅
  let firstNode := first.head?.getD ∅
  let checked := viewerLogin != "" && (node.get "comments").toDict?.isSome
  let replyUrl := viewerReplyEvidence reading.comments viewerLogin
  let row := Dict.ofFields
    [("id", node.get "id"), ("isResolved", node.get "isResolved"),
      ("isOutdated", node.get "isOutdated"), ("path", node.get "path"), ("line", node.get "line"),
      ("url", (latestNode.get "url").orElse (firstNode.get "url")),
      ("body", (latestNode.get "body").orElse (firstNode.get "body")),
      ("comment_source",
        .str (if latest ≠ [] then "latest" else if first ≠ [] then "first" else "none")),
      ("first_url", firstNode.get "url"), ("latest_url", latestNode.get "url"),
      ("first_body", firstNode.get "body"), ("latest_body", latestNode.get "body"),
      ("viewer_reply_checked", .bool checked), ("viewer_replied", .bool replyUrl.truthy),
      ("viewer_reply_url", replyUrl)]
  (row.setIfSome "first_author_login" (optionalLogin firstNode)).setIfSome "latest_author_login"
    (optionalLogin latestNode)

/-- `_review_threads`; `none` where it raises. -/
def reviewThreads (payload : Value) : Option Value := do
  let data ← (← payload.toDict?)["data"]?
  let repository ← (← data.toDict?)["repository"]?
  let pullRequest ← (← repository.toDict?)["pullRequest"]?
  let threads ← (← pullRequest.toDict?)["reviewThreads"]?
  if threads.toDict?.isSome then some threads else none

/-- The connections of a thread's comments, if it has any. -/
def threadConnections (node : Dict) (responses : Responses) : Option (List Value × Responses) :=
  if (node.get "comments").toDict?.isSome then loadThreadComments (node.get "comments") responses
  else some ([], responses)

/-- The threads of one page, each with its comments. -/
def readThreads : List Dict → Responses → Option (List ThreadReading × Responses)
  | [], responses => some ([], responses)
  | node :: nodes, responses => do
      let _ ← node["id"]?
      let (connections, responses) ← threadConnections node responses
      let (readings, responses) ← readThreads nodes responses
      return ({ node, connections } :: readings, responses)

/-- The loop of `list_threads` over the pages; each of them takes a response. -/
def readThreadPages : ℕ → Responses → Option (List ThreadReading)
  | _, [] | 0, _ => none
  | fuel + 1, response :: responses => do
      let threads ← reviewThreads (← response)
      let (readings, responses) ← readThreads (connectionNodes threads) responses
      if (commentPageState threads).1 then
        let more ← readThreadPages fuel responses
        return readings ++ more
      else return readings

/-- The threads that `list_threads` reads; `none` where it raises. -/
def threadReadings (responses : Responses) : Option (List ThreadReading) :=
  readThreadPages responses.length responses

/-- `list_threads` for a viewer, who has no login where asking for it raised. -/
def listThreads (viewerLogin : String) (responses : Responses) : Option (List Dict) :=
  (threadReadings responses).map (·.map (threadRow viewerLogin))

def hasNextPage (connection : Value) : Value := (connection.field "pageInfo").field "hasNextPage"

/-- All the nodes of a page are there. -/
def IsFullPage (connection : Value) : Prop :=
  ∃ nodes, connection.field "nodes" = .list nodes ∧ ∀ node ∈ nodes, node.toDict?.isSome = true

/-- The page says that another one follows, and with which cursor. -/
def IsFollowed (connection : Value) : Prop :=
  hasNextPage connection = .bool true ∧ (commentPageState connection).2.isSome = true

/-- The pages were read to their end: each is full, each but the last names the one after it,
and the last says that it is the last. -/
structure ReadToEnd (connections : List Value) : Prop where
  full : ∀ connection ∈ connections, IsFullPage connection
  followed : ∀ connection ∈ connections.dropLast, IsFollowed connection
  ended : ∃ last ∈ connections.getLast?, hasNextPage last = .bool false

/-- The cursors of the pages that another page follows. -/
def nextCursors (connections : List Value) : List (Option String) :=
  (connections.filter fun connection => (commentPageState connection).1).map fun connection =>
    (commentPageState connection).2

/-- Pages as GitHub documents them: each is full and says whether another one follows, and no two
name the same one. -/
structure WellFormedPages (connections : List Value) : Prop where
  full : ∀ connection ∈ connections, IsFullPage connection
  next : ∀ connection ∈ connections, hasNextPage connection = .bool false ∨ IsFollowed connection
  fresh : (nextCursors connections).Nodup

theorem commentPageState_fst (connection : Value) :
    (commentPageState connection).1 = (hasNextPage connection).truthy := by
  unfold commentPageState hasNextPage
  generalize connection.field "pageInfo" = info
  cases hinfo : info.toDict? with
  | none => simp [Value.field, hinfo]
  | some pageInfo => simp [Value.field, hinfo]

/-- The pages that the loop goes through after a page in this state. -/
def Follow : List (Option String) → Bool × Option String → List Value → Prop
  | seenCursors, state, [] => ¬ (state.1 = true ∧ state.2 ∉ seenCursors)
  | seenCursors, state, connection :: connections =>
      (state.1 = true ∧ state.2 ∉ seenCursors) ∧
        Follow (state.2 :: seenCursors) (commentPageState connection) connections

theorem follow_of_loadMoreComments {seenCursors : List (Option String)}
    {state : Bool × Option String} {responses rest : Responses} {connections : List Value}
    (h : loadMoreComments seenCursors state responses = some (connections, rest)) :
    Follow seenCursors state connections := by
  induction responses generalizing seenCursors state connections rest with
  | nil =>
      unfold loadMoreComments at h
      split at h
      · cases h
      · next hend =>
        obtain ⟨rfl, -⟩ := Prod.mk.inj (Option.some.inj h)
        exact hend
  | cons response responses ih =>
      unfold loadMoreComments at h
      split at h
      · next hnext =>
        obtain ⟨payload, -, h⟩ := Option.bind_eq_some_iff.mp h
        obtain ⟨connection, -, h⟩ := Option.bind_eq_some_iff.mp h
        obtain ⟨⟨more, left⟩, hmore, h⟩ := Option.bind_eq_some_iff.mp h
        obtain ⟨rfl, -⟩ := Prod.mk.inj (Option.some.inj h)
        exact ⟨hnext, ih hmore⟩
      · next hend =>
        obtain ⟨rfl, -⟩ := Prod.mk.inj (Option.some.inj h)
        exact hend

theorem isFollowed_state {connection : Value} (h : IsFollowed connection) :
    (commentPageState connection).1 = true := by
  rw [commentPageState_fst, h.1]
  rfl

theorem not_next_of_false {connection : Value} (h : hasNextPage connection = .bool false) :
    (commentPageState connection).1 = false := by
  rw [commentPageState_fst, h]
  rfl

theorem readToEnd_singleton {connection : Value} :
    ReadToEnd [connection] ↔ IsFullPage connection ∧ hasNextPage connection = .bool false := by
  constructor
  · intro h
    obtain ⟨last, hlast, hended⟩ := h.ended
    obtain rfl : connection = last := by simpa using hlast
    exact ⟨h.full connection (by simp), hended⟩
  · rintro ⟨hfull, hended⟩
    exact ⟨by simpa using hfull, by simp, connection, by simp, hended⟩

theorem readToEnd_cons {first second : Value} {connections : List Value} :
    ReadToEnd (first :: second :: connections) ↔
      IsFullPage first ∧ IsFollowed first ∧ ReadToEnd (second :: connections) := by
  constructor
  · intro h
    refine ⟨h.full first (by simp), h.followed first (by simp), ?_, ?_, ?_⟩
    · exact fun connection hmem => h.full connection (by simp [List.mem_cons.mp hmem])
    · exact fun connection hmem => h.followed connection (by simp [hmem])
    · simpa using h.ended
  · rintro ⟨hfull, hfollowed, h⟩
    refine ⟨?_, ?_, by simpa using h.ended⟩
    · intro connection hmem
      rcases List.mem_cons.mp hmem with rfl | hmem
      · exact hfull
      · exact h.full connection hmem
    · intro connection hmem
      rw [List.dropLast_cons_of_ne_nil (by simp)] at hmem
      rcases List.mem_cons.mp hmem with rfl | hmem
      · exact hfollowed
      · exact h.followed connection hmem

/-- The loop reads to the end exactly when every page it meets is well formed. -/
theorem readToEnd_iff {seenCursors : List (Option String)} {first : Value}
    {connections : List Value}
    (h : Follow seenCursors (commentPageState first) connections) :
    ReadToEnd (first :: connections) ↔
      WellFormedPages (first :: connections) ∧
        ∀ cursor ∈ nextCursors (first :: connections), cursor ∉ seenCursors := by
  induction connections generalizing seenCursors first with
  | nil =>
      rw [readToEnd_singleton]
      constructor
      · rintro ⟨hfull, hended⟩
        have hnone : nextCursors [first] = [] := by simp [nextCursors, not_next_of_false hended]
        refine ⟨⟨by simpa using hfull, ?_, by simp [hnone]⟩, by simp [hnone]⟩
        intro connection hmem
        obtain rfl := List.mem_singleton.mp hmem
        exact Or.inl hended
      · rintro ⟨hwell, hfresh⟩
        refine ⟨hwell.full first (by simp), ?_⟩
        rcases hwell.next first (by simp) with hended | hfollowed
        · exact hended
        · have hstate := isFollowed_state hfollowed
          exact absurd ⟨hstate, hfresh _ (by simp [nextCursors, hstate])⟩ h
  | cons second connections ih =>
      obtain ⟨⟨hstate, hseen⟩, hfollow⟩ := h
      have hcursors : nextCursors (first :: second :: connections) =
          (commentPageState first).2 :: nextCursors (second :: connections) := by
        simp [nextCursors, hstate]
      rw [readToEnd_cons, ih hfollow]
      constructor
      · rintro ⟨hfull, hfollowed, hwell, hfresh⟩
        refine ⟨⟨?_, ?_, ?_⟩, ?_⟩
        · intro connection hmem
          rcases List.mem_cons.mp hmem with rfl | hmem
          · exact hfull
          · exact hwell.full connection hmem
        · intro connection hmem
          rcases List.mem_cons.mp hmem with rfl | hmem
          · exact Or.inr hfollowed
          · exact hwell.next connection hmem
        · rw [hcursors, List.nodup_cons]
          exact ⟨fun hmem => hfresh _ hmem (by simp), hwell.fresh⟩
        · intro cursor hmem
          rw [hcursors] at hmem
          rcases List.mem_cons.mp hmem with rfl | hmem
          · exact hseen
          · exact fun hold => hfresh cursor hmem (by simp [hold])
      · rintro ⟨hwell, hfresh⟩
        have hfirst : IsFollowed first := by
          rcases hwell.next first (by simp) with hended | hfollowed
          · rw [not_next_of_false hended] at hstate
            cases hstate
          · exact hfollowed
        have hnodup := hwell.fresh
        rw [hcursors, List.nodup_cons] at hnodup
        refine ⟨hwell.full first (by simp), hfirst, ⟨?_, ?_, hnodup.2⟩, ?_⟩
        · exact fun connection hmem => hwell.full connection (List.mem_cons_of_mem _ hmem)
        · exact fun connection hmem => hwell.next connection (List.mem_cons_of_mem _ hmem)
        · intro cursor hmem hold
          rcases List.mem_cons.mp hold with rfl | hold
          · exact hnodup.1 hmem
          · exact hfresh cursor (by rw [hcursors]; exact List.mem_cons_of_mem _ hmem) hold

/-- The row says that the viewer has not replied. -/
def ReportsAbsence (row : Dict) : Prop :=
  row.get "viewer_reply_checked" = .bool true ∧ row.get "viewer_replied" = .bool false

instance (row : Dict) : Decidable (ReportsAbsence row) := inferInstanceAs (Decidable (_ ∧ _))

theorem threadRow_reports (viewerLogin : String) (reading : ThreadReading) :
    ReportsAbsence (threadRow viewerLogin reading) ↔
      viewerLogin ≠ "" ∧ ((reading.node.get "comments").toDict?).isSome = true ∧
        (viewerReplyEvidence reading.comments viewerLogin).truthy = false := by
  unfold ReportsAbsence threadRow
  simp only [Dict.get_setIfSome, Dict.ofFields, List.foldl_cons, List.foldl_nil, Dict.get_insert,
    String.reduceEq, if_false, if_true, Value.bool.injEq, Bool.and_eq_true, bne_iff_ne, and_assoc]

/-- The url of a viewer's reply is a text that shows. -/
theorem isViewerReply_url {viewerLogin : String} {comment : Dict}
    (h : isViewerReply viewerLogin comment = true) : (comment.get "url").truthy = true := by
  unfold isViewerReply at h
  rw [Bool.and_eq_true] at h
  cases hurl : comment.get "url" with
  | str url =>
      rw [hurl] at h
      have hshown : strip url ≠ "" := by simpa using h.2
      rw [Value.truthy_str, bne_iff_ne]
      rintro rfl
      exact hshown (by decide)
  | _ =>
      rw [hurl] at h
      cases h.2

theorem viewerReplyEvidence_truthy {viewerLogin : String} (comments : List Dict)
    (h : viewerLogin ≠ "") : (viewerReplyEvidence comments viewerLogin).truthy = true ↔
      ∃ comment ∈ comments.drop 1, isViewerReply viewerLogin comment = true := by
  unfold viewerReplyEvidence
  rw [if_neg h]
  cases hlast : ((comments.drop 1).filter (isViewerReply viewerLogin)).getLast? with
  | none =>
      have hnone := List.filter_eq_nil_iff.mp (List.getLast?_eq_none_iff.mp hlast)
      simpa using hnone
  | some comment =>
      have hmem := List.mem_filter.mp (List.mem_of_getLast? hlast)
      exact iff_of_true (by simpa using isViewerReply_url hmem.2) ⟨comment, hmem⟩

/-- How the comments of a thread were read. -/
inductive ThreadReading.Complete (reading : ThreadReading) : Prop where
  | absent (comments : (reading.node.get "comments").toDict? = none)
      (connections : reading.connections = [])
  | followed (more : List Value)
      (comments : ((reading.node.get "comments").toDict?).isSome = true)
      (connections : reading.connections = reading.node.get "comments" :: more)
      (follow : Follow [] (commentPageState (reading.node.get "comments")) more)

theorem complete_of_readThreads {nodes : List Dict} {responses rest : Responses}
    {readings : List ThreadReading} (h : readThreads nodes responses = some (readings, rest)) :
    ∀ reading ∈ readings, reading.Complete := by
  induction nodes generalizing responses readings rest with
  | nil =>
      obtain ⟨rfl, -⟩ := Prod.mk.inj (Option.some.inj h)
      simp
  | cons node nodes ih =>
      rw [readThreads] at h
      obtain ⟨_, -, h⟩ := Option.bind_eq_some_iff.mp h
      obtain ⟨⟨connections, left⟩, hload, h⟩ := Option.bind_eq_some_iff.mp h
      obtain ⟨⟨more, last⟩, hmore, h⟩ := Option.bind_eq_some_iff.mp h
      obtain ⟨rfl, -⟩ := Prod.mk.inj (Option.some.inj h)
      intro reading hreading
      rcases List.mem_cons.mp hreading with rfl | hreading
      · unfold threadConnections at hload
        split at hload
        · next hcomments =>
          obtain ⟨⟨pages, after⟩, hpages, hload⟩ := Option.map_eq_some_iff.mp hload
          obtain ⟨rfl, -⟩ := Prod.mk.inj hload
          exact .followed pages hcomments rfl (follow_of_loadMoreComments hpages)
        · next hcomments =>
          obtain ⟨rfl, -⟩ := Prod.mk.inj (Option.some.inj hload)
          exact .absent (by simpa using hcomments) rfl
      · exact ih hmore reading hreading

theorem complete_of_readThreadPages {fuel : ℕ} {responses : Responses}
    {readings : List ThreadReading} (h : readThreadPages fuel responses = some readings) :
    ∀ reading ∈ readings, reading.Complete := by
  induction fuel generalizing responses readings with
  | zero => cases responses <;> cases h
  | succ fuel ih =>
      cases responses with
      | nil => cases h
      | cons response responses =>
          rw [readThreadPages] at h
          obtain ⟨payload, -, h⟩ := Option.bind_eq_some_iff.mp h
          obtain ⟨threads, -, h⟩ := Option.bind_eq_some_iff.mp h
          obtain ⟨⟨page, rest⟩, hpage, h⟩ := Option.bind_eq_some_iff.mp h
          have hread := complete_of_readThreads hpage
          simp only at h
          split at h
          · obtain ⟨more, hmore, h⟩ := Option.bind_eq_some_iff.mp h
            obtain rfl := Option.some.inj h
            intro reading hreading
            rcases List.mem_append.mp hreading with hreading | hreading
            · exact hread reading hreading
            · exact ih hmore reading hreading
          · obtain rfl := Option.some.inj h
            exact hread

/-! The fuel of the pages never runs out: a page takes a response. -/

theorem loadMoreComments_length {seenCursors : List (Option String)}
    {state : Bool × Option String} {responses rest : Responses} {connections : List Value}
    (h : loadMoreComments seenCursors state responses = some (connections, rest)) :
    rest.length ≤ responses.length := by
  induction responses generalizing seenCursors state connections rest with
  | nil =>
      unfold loadMoreComments at h
      split at h
      · cases h
      · obtain ⟨-, rfl⟩ := Prod.mk.inj (Option.some.inj h)
        exact le_rfl
  | cons response responses ih =>
      unfold loadMoreComments at h
      split at h
      · obtain ⟨payload, -, h⟩ := Option.bind_eq_some_iff.mp h
        obtain ⟨connection, -, h⟩ := Option.bind_eq_some_iff.mp h
        obtain ⟨⟨more, left⟩, hmore, h⟩ := Option.bind_eq_some_iff.mp h
        obtain ⟨-, rfl⟩ := Prod.mk.inj (Option.some.inj h)
        have := ih hmore
        simp only [List.length_cons]
        omega
      · obtain ⟨-, rfl⟩ := Prod.mk.inj (Option.some.inj h)
        exact le_rfl

theorem readThreads_length {nodes : List Dict} {responses rest : Responses}
    {readings : List ThreadReading} (h : readThreads nodes responses = some (readings, rest)) :
    rest.length ≤ responses.length := by
  induction nodes generalizing responses readings with
  | nil =>
      obtain ⟨-, rfl⟩ := Prod.mk.inj (Option.some.inj h)
      exact le_rfl
  | cons node nodes ih =>
      rw [readThreads] at h
      obtain ⟨_, -, h⟩ := Option.bind_eq_some_iff.mp h
      obtain ⟨⟨connections, left⟩, hload, h⟩ := Option.bind_eq_some_iff.mp h
      obtain ⟨⟨more, last⟩, hmore, h⟩ := Option.bind_eq_some_iff.mp h
      obtain ⟨-, rfl⟩ := Prod.mk.inj (Option.some.inj h)
      have hrest := ih hmore
      have hleft : left.length ≤ responses.length := by
        unfold threadConnections at hload
        split at hload
        · obtain ⟨⟨pages, after⟩, hpages, hload⟩ := Option.map_eq_some_iff.mp hload
          obtain ⟨-, rfl⟩ := Prod.mk.inj hload
          exact loadMoreComments_length hpages
        · obtain ⟨-, rfl⟩ := Prod.mk.inj (Option.some.inj hload)
          exact le_rfl
      omega

theorem readThreadPages_fuel {fuel : ℕ} {responses : Responses}
    (h : responses.length ≤ fuel) : readThreadPages fuel responses = threadReadings responses := by
  have hmany : ∀ size fuel' (responses : Responses), responses.length ≤ size → size ≤ fuel' →
      readThreadPages fuel' responses = readThreadPages size responses := by
    intro size
    induction size with
    | zero =>
        intro fuel' responses hsize _
        obtain rfl := List.length_eq_zero_iff.mp (Nat.le_zero.mp hsize)
        cases fuel' <;> rfl
    | succ size ih =>
        intro fuel' responses hsize hfuel
        obtain ⟨fuel', rfl⟩ : ∃ n, fuel' = n + 1 := ⟨fuel' - 1, by omega⟩
        cases responses with
        | nil => rfl
        | cons response responses =>
            rw [readThreadPages, readThreadPages]
            refine congrArg (Option.bind response) (funext fun payload => ?_)
            refine congrArg (Option.bind (reviewThreads payload)) (funext fun threads => ?_)
            cases hpage : readThreads (connectionNodes threads) responses with
            | none => rfl
            | some page =>
                have hlength := readThreads_length hpage
                simp only [List.length_cons] at hsize
                have hrest := ih fuel' page.2 (by omega) (by omega)
                simp only [Option.bind_eq_bind, Option.bind_some, hrest]
  exact hmany _ fuel responses le_rfl h

/-- What the publisher needs of a thread that is reported without a reply of the viewer. -/
structure AbsenceProved (viewerLogin : String) (reading : ThreadReading) : Prop where
  readToEnd : ReadToEnd reading.connections
  noReply : ∀ comment ∈ reading.comments.drop 1, authorLogin comment ≠ .str viewerLogin

/-- A report is a proof when the pages are well formed and the viewer's comments have urls. -/
theorem absence_sound_iff {viewerLogin : String} {reading : ThreadReading}
    (h : reading.Complete) :
    (ReportsAbsence (threadRow viewerLogin reading) → AbsenceProved viewerLogin reading) ↔
      viewerLogin = "" ∨ (reading.node.get "comments").toDict? = none ∨
        (∃ comment ∈ reading.comments.drop 1, isViewerReply viewerLogin comment = true) ∨
        WellFormedPages reading.connections ∧ ∀ comment ∈ reading.comments.drop 1,
          authorLogin comment = .str viewerLogin → isViewerReply viewerLogin comment = true := by
  rw [threadRow_reports]
  by_cases hviewer : viewerLogin = ""
  · simp [hviewer]
  cases h with
  | absent hcomments _ => simp [hcomments]
  | followed more hcomments hconnections hfollow =>
      have hpages : ReadToEnd reading.connections ↔ WellFormedPages reading.connections := by
        rw [hconnections, readToEnd_iff hfollow]
        simp
      have hnotNone : (reading.node.get "comments").toDict? ≠ none :=
        Option.isSome_iff_ne_none.mp hcomments
      by_cases hreplied :
          ∃ comment ∈ reading.comments.drop 1, isViewerReply viewerLogin comment = true
      · have htruthy := (viewerReplyEvidence_truthy reading.comments hviewer).mpr hreplied
        refine iff_of_true (fun hreport => ?_) (Or.inr (Or.inr (Or.inl hreplied)))
        rw [htruthy] at hreport
        cases hreport.2.2
      · have hfalse : (viewerReplyEvidence reading.comments viewerLogin).truthy = false := by
          rw [← Bool.not_eq_true, viewerReplyEvidence_truthy reading.comments hviewer]
          exact hreplied
        constructor
        · intro hproved
          obtain ⟨hread, hnone⟩ := hproved ⟨hviewer, hcomments, hfalse⟩
          exact Or.inr (Or.inr (Or.inr ⟨hpages.mp hread, fun comment hmem hauthor =>
            absurd hauthor (hnone comment hmem)⟩))
        · intro hcases _
          rcases hcases with hempty | hnone | hfound | ⟨hwell, hurls⟩
          · exact absurd hempty hviewer
          · exact absurd hnone hnotNone
          · exact absurd hfound hreplied
          · refine ⟨hpages.mpr hwell, fun comment hmem hauthor => ?_⟩
            exact hreplied ⟨comment, hmem, hurls comment hmem hauthor⟩

/-- The same for every thread of a listing, whatever GitHub responded. -/
theorem listed_absence_sound_iff {viewerLogin : String} {responses : Responses}
    {readings : List ThreadReading} (h : threadReadings responses = some readings) :
    (∀ reading ∈ readings, ReportsAbsence (threadRow viewerLogin reading) →
        AbsenceProved viewerLogin reading) ↔
      ∀ reading ∈ readings,
        viewerLogin = "" ∨ (reading.node.get "comments").toDict? = none ∨
        (∃ comment ∈ reading.comments.drop 1, isViewerReply viewerLogin comment = true) ∨
        WellFormedPages reading.connections ∧ ∀ comment ∈ reading.comments.drop 1,
          authorLogin comment = .str viewerLogin → isViewerReply viewerLogin comment = true :=
  forall₂_congr fun reading hreading =>
    absence_sound_iff (complete_of_readThreadPages h reading hreading)

/-- `_publisher_never_replied`, on the listing unless it raised. -/
def publisherNeverReplied (threads : Option (List Dict)) (threadId : String) : Bool :=
  match (threads.getD []).find? (·.textOr "id" "" = threadId) with
  | none => false
  | some row => row.get "viewer_reply_checked" = .bool true && row.get "viewer_replied" = .bool false

/-- The publisher posts again only for a thread that is reported without a reply. -/
theorem publisherNeverReplied_reports {viewerLogin threadId : String} {responses : Responses}
    (h : publisherNeverReplied (listThreads viewerLogin responses) threadId = true) :
    ∃ readings, threadReadings responses = some readings ∧ ∃ reading ∈ readings,
      (threadRow viewerLogin reading).textOr "id" "" = threadId ∧
        ReportsAbsence (threadRow viewerLogin reading) := by
  unfold publisherNeverReplied at h
  split at h
  · cases h
  · next row hfound =>
    have hid := List.find?_some hfound
    have hmem := List.mem_of_find?_eq_some hfound
    unfold listThreads at hmem
    cases hread : threadReadings responses with
    | none =>
        rw [hread] at hmem
        cases hmem
    | some readings =>
        rw [hread] at hmem
        obtain ⟨reading, hreading, rfl⟩ := List.mem_map.mp hmem
        rw [Bool.and_eq_true, decide_eq_true_eq, decide_eq_true_eq] at h
        exact ⟨readings, rfl, reading, hreading, by simpa using hid, h⟩

/-- A comment by this login. -/
def commentBy (login url : String) : Value :=
  .dict [("url", .str url), ("author", .dict [("login", .str login)])]

/-- A page of comments that says what follows it. -/
def commentPage (comments : List Value) (hasNext : Bool) (cursor : String) : Value :=
  .dict [("nodes", .list comments),
    ("pageInfo", .dict [("hasNextPage", .bool hasNext), ("endCursor", .str cursor)])]

/-- The answer to the query for threads, with one thread that has these comments. -/
def threadsAnswer (comments : Value) : Value :=
  .dict [("data", .dict [("repository", .dict [("pullRequest", .dict [("reviewThreads",
    .dict [("nodes", .list [.dict [("id", .str "thread:1"), ("comments", comments)]]),
      ("pageInfo", .dict [("hasNextPage", .bool false)])])])])])]

/-- The answer to a query for more comments. -/
def commentsAnswer (comments : Value) : Value :=
  .dict [("data", .dict [("node", .dict [("comments", comments)])])]

/-- Two well-formed pages without a reply of the viewer. -/
def completeResponses : Responses :=
  [some (threadsAnswer (commentPage [commentBy "reviewer" "u1"] true "c1")),
    some (commentsAnswer (commentPage [commentBy "author" "u2"] false "c2"))]

/-- The second page gives the cursor of the first one again, and a third one is never asked for. -/
def repeatedCursorResponses : Responses :=
  [some (threadsAnswer (commentPage [commentBy "reviewer" "u1"] true "c1")),
    some (commentsAnswer (commentPage [commentBy "author" "u2"] true "c1"))]

theorem isFullPage_commentPage {comments : List Value} (hasNext : Bool) (cursor : String)
    (h : ∀ comment ∈ comments, comment.toDict?.isSome = true) :
    IsFullPage (commentPage comments hasNext cursor) := by
  refine ⟨comments, ?_, h⟩
  simp [commentPage, Value.field, Value.toDict?, Dict.ofFields, Dict.get_insert]

@[simp] theorem hasNextPage_commentPage (comments : List Value) (hasNext : Bool) (cursor : String) :
    hasNextPage (commentPage comments hasNext cursor) = .bool hasNext := by
  simp [hasNextPage, commentPage, Value.field, Value.toDict?, Dict.ofFields, Dict.get_insert]

/-- The thread of these responses. -/
def exampleReading (second : Value) : ThreadReading where
  node := Dict.ofFields [("id", .str "thread:1"),
    ("comments", commentPage [commentBy "reviewer" "u1"] true "c1")]
  connections := [commentPage [commentBy "reviewer" "u1"] true "c1", second]

theorem complete_pages_prove_absence :
    threadReadings completeResponses =
      some [exampleReading (commentPage [commentBy "author" "u2"] false "c2")] ∧
    AbsenceProved "bot" (exampleReading (commentPage [commentBy "author" "u2"] false "c2")) := by
  have hreadings : threadReadings completeResponses =
      some [exampleReading (commentPage [commentBy "author" "u2"] false "c2")] := by decide +kernel
  refine ⟨hreadings, (listed_absence_sound_iff hreadings).mpr ?_ _ (by simp)
    (by decide +kernel)⟩
  intro reading hreading
  obtain rfl := List.mem_singleton.mp hreading
  refine Or.inr (Or.inr (Or.inr ⟨⟨?_, ?_, by decide +kernel⟩, ?_⟩))
  · intro connection hconnection
    simp only [exampleReading, List.mem_cons, List.not_mem_nil, or_false] at hconnection
    rcases hconnection with rfl | rfl <;> exact isFullPage_commentPage _ _ (by decide)
  · intro connection hconnection
    simp only [exampleReading, List.mem_cons, List.not_mem_nil, or_false] at hconnection
    rcases hconnection with rfl | rfl
    · exact Or.inr ⟨hasNextPage_commentPage _ _ _, by decide +kernel⟩
    · exact Or.inl (hasNextPage_commentPage _ _ _)
  · decide +kernel

/-- A repeated cursor ends the reading, and the thread is reported without a reply. -/
theorem repeated_cursor_reported_absent :
    threadReadings repeatedCursorResponses =
      some [exampleReading (commentPage [commentBy "author" "u2"] true "c1")] ∧
    ReportsAbsence
      (threadRow "bot" (exampleReading (commentPage [commentBy "author" "u2"] true "c1"))) ∧
    ¬ AbsenceProved "bot"
      (exampleReading (commentPage [commentBy "author" "u2"] true "c1")) := by
  refine ⟨by decide +kernel, by decide +kernel, fun hproved => ?_⟩
  obtain ⟨last, hlast, hended⟩ := hproved.readToEnd.ended
  obtain rfl : commentPage [commentBy "author" "u2"] true "c1" = last := by
    simpa [exampleReading] using hlast
  rw [hasNextPage_commentPage] at hended
  cases hended

end GhAddressCr
