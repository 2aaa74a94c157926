import GhAddressCr.FinalGateSoundness
import GhAddressCr.ReviewLifecycle

/-!
# The order of the final gate's evidence

Facts may be replayed in any order: the gate sorts them, and refuses two facts at one place. The
evidence itself is listed by GitHub and by the session, in an order that means nothing; here the
verdict is compared on two listings of the same rows.
-/
namespace GhAddressCr

open PyText GithubThreadState CrMetrics

def FactKind.value : FactKind → String
  | .reviewThreadObserved => "review_thread_observed"
  | .localItemObserved => "local_item_observed"
  | .pendingReviewObserved => "pending_review_observed"
  | .checkRunObserved => "check_run_observed"
  | .logicValidationObserved => "logic_validation_observed"

def supportedFactKinds : List FactKind :=
  [.reviewThreadObserved, .localItemObserved, .pendingReviewObserved, .checkRunObserved,
    .logicValidationObserved]

def runtimeFactSchemaVersion : String := "1.0"

/-- A fact as it is given to the gate: an object, or read already. -/
inductive FactInput where
  | object (fields : Dict)
  | fact (fact : RuntimeFact)

/-- `_require_string`. -/
def requireString (payload : Dict) (fieldName : String) : Except String String :=
  match payload.get fieldName with
  | .str text =>
      if strip text = "" then .error (fieldName ++ " must be a non-empty string") else .ok text
  | _ => .error (fieldName ++ " must be a non-empty string")

/-- `_optional_int`, with zero where the field is missing. -/
def optionalInt (payload : Dict) (fieldName : String) : Except String Int :=
  if payload.has fieldName then
    match payload.get fieldName with
    | .int value => .ok value
    | _ => .error (fieldName ++ " must be an integer")
  else .ok 0

/-- A time that ends in `Z` is in UTC. -/
def normalizedObservedAt (value : String) : String :=
  if value.toList.getLast? = some 'Z' then String.ofList value.toList.dropLast ++ "+00:00"
  else value

section Reading

variable (fromisoformat : String → IsoReading)

/-- `_parse_observed_at`. -/
def parseObservedAt (value : String) : Except String Int :=
  match fromisoformat (normalizedObservedAt value) with
  | .invalid =>
      .error ("observed_at must be an RFC3339 timestamp with timezone: " ++ value)
  | .naive _ => .error ("observed_at must include a timezone offset: " ++ value)
  | .aware wall offset =>
      if (IsoReading.aware wall offset).outOfRange then .error "OverflowError"
      else .ok (wall - offset)

/-- `RuntimeFact.from_dict`. -/
def RuntimeFact.fromDict : FactInput → Except String RuntimeFact
  | .fact fact => .ok fact
  | .object payload => do
      let schemaVersion ← requireString payload "schema_version"
      if schemaVersion ≠ runtimeFactSchemaVersion then
        .error ("unsupported runtime fact schema_version: " ++ schemaVersion)
      let kindText ← requireString payload "fact_kind"
      match supportedFactKinds.find? (·.value = kindText) with
      | none => .error ("unsupported runtime fact kind: " ++ kindText)
      | some factKind =>
          let factId ← requireString payload "fact_id"
          let observedAt ← parseObservedAt fromisoformat (← requireString payload "observed_at")
          let sequence ← optionalInt payload "sequence"
          match if payload.has "payload" then (payload.get "payload").toDict? else some ∅ with
          | none => .error "payload must be a JSON object"
          | some payload => .ok { factKind, factId, observedAt, sequence, payload }

/-- `project_final_gate`, on facts in any form. -/
def projectFactInputs (inputs : List FactInput) (currentLogin checkRequirement : Option String) :
    Except String FinalGateProjection := do
  let facts ← inputs.mapM (RuntimeFact.fromDict fromisoformat)
  projectFinalGate facts currentLogin checkRequirement

end Reading

theorem mapM_eq_ok_iff {α β ε : Type} {f : α → Except ε β} {xs : List α} {ys : List β} :
    xs.mapM f = .ok ys ↔ List.Forall₂ (fun x y => f x = .ok y) xs ys := by
  induction xs generalizing ys with
  | nil => cases ys <;> simp [pure, Except.pure]
  | cons x xs ih =>
      rw [List.mapM_cons]
      cases hx : f x with
      | error message => simp [bind, Except.bind, List.forall₂_cons_left_iff, hx]
      | ok y =>
          cases hxs : xs.mapM f with
          | error message =>
              have hnone : ∀ rest, ¬ List.Forall₂ (fun x y => f x = .ok y) xs rest := by
                intro rest hrest
                rw [← ih, hxs] at hrest
                cases hrest
              simp [bind, Except.bind, List.forall₂_cons_left_iff, hnone]
          | ok rest =>
              have hbind : (do let y ← f x; let rest ← xs.mapM f; pure (y :: rest)) =
                  (.ok (y :: rest) : Except ε (List β)) := by rw [hx, hxs]; rfl
              rw [← hx, ← hxs, hbind]
              constructor
              · intro h
                cases h
                exact .cons hx (ih.mp hxs)
              · intro h
                cases h with
                | cons hy htail =>
                    rw [hx] at hy
                    rw [← ih, hxs] at htail
                    cases hy
                    cases htail
                    rfl

/-- A list read in another order gives the same elements in another order. -/
theorem mapM_ok_perm {α β ε : Type} {f : α → Except ε β} {xs xs' : List α} (h : xs.Perm xs')
    {ys : List β} (hys : xs.mapM f = .ok ys) : ∃ ys', xs'.mapM f = .ok ys' ∧ ys.Perm ys' := by
  obtain ⟨ys', hread, hperm⟩ := List.perm_comp_forall₂ h.symm (mapM_eq_ok_iff.mp hys)
  exact ⟨ys', mapM_eq_ok_iff.mpr hread, hperm.symm⟩

namespace RuntimeFact

theorem le_total (a b : RuntimeFact) : a.le b ∨ b.le a := by
  have hid : a.factId ≤ b.factId ∨ b.factId ≤ a.factId := String.le_total _ _
  unfold le
  rcases lt_trichotomy a.observedAt b.observedAt with hat | hat | hat
  · exact .inl (.inl hat)
  · rcases lt_trichotomy a.sequence b.sequence with hseq | hseq | hseq
    · exact .inl (.inr ⟨hat, .inl hseq⟩)
    · exact hid.imp (fun h => .inr ⟨hat, .inr ⟨hseq, h⟩⟩)
        fun h => .inr ⟨hat.symm, .inr ⟨hseq.symm, h⟩⟩
    · exact .inr (.inr ⟨hat.symm, .inl hseq⟩)
  · exact .inr (.inl hat)

theorem le_trans {a b c : RuntimeFact} (h : a.le b) (h' : b.le c) : a.le c := by
  unfold le at *
  rcases h with h | ⟨hat, h⟩ <;> rcases h' with h' | ⟨hat', h'⟩
  · exact .inl (by omega)
  · exact .inl (by omega)
  · exact .inl (by omega)
  · refine .inr ⟨hat.trans hat', ?_⟩
    rcases h with h | ⟨hseq, h⟩ <;> rcases h' with h' | ⟨hseq', h'⟩
    · exact .inl (by omega)
    · exact .inl (by omega)
    · exact .inl (by omega)
    · exact .inr ⟨hseq.trans hseq', String.le_trans h h'⟩

theorem sortKey_of_le {a b : RuntimeFact} (h : a.le b) (h' : b.le a) : a.sortKey = b.sortKey := by
  unfold le at *
  have hat : a.observedAt = b.observedAt := by omega
  have hseq : a.sequence = b.sequence := by omega
  have hid : a.factId = b.factId := by
    refine String.le_antisymm ?_ ?_
    · rcases h with h | ⟨-, h | ⟨-, h⟩⟩
      · omega
      · omega
      · exact h
    · rcases h' with h' | ⟨-, h' | ⟨-, h'⟩⟩
      · omega
      · omega
      · exact h'
  simp [sortKey, hat, hseq, hid]

instance : Std.Total RuntimeFact.le := ⟨le_total⟩

instance : IsTrans RuntimeFact RuntimeFact.le := ⟨fun _ _ _ => le_trans⟩

end RuntimeFact

theorem duplicateFact?_eq_none {seen : List (Int × Int × String)} {facts : List RuntimeFact} :
    duplicateFact? seen facts = none ↔
      (facts.map RuntimeFact.sortKey).Nodup ∧ ∀ fact ∈ facts, fact.sortKey ∉ seen := by
  induction facts generalizing seen with
  | nil => simp [duplicateFact?]
  | cons fact facts ih =>
      rw [duplicateFact?]
      by_cases hseen : fact.sortKey ∈ seen
      · simp [hseen]
      · simp only [List.contains_eq_mem, hseen, decide_false, Bool.false_eq_true, if_false, ih,
          List.map_cons, List.nodup_cons, List.mem_map, List.mem_cons, not_or, not_exists, not_and,
          forall_eq_or_imp, not_false_eq_true, true_and]
        constructor
        · rintro ⟨hnodup, hfresh⟩
          exact ⟨⟨fun other hother => (hfresh other hother).1, hnodup⟩,
            fun other hother => (hfresh other hother).2⟩
        · rintro ⟨⟨hfirst, hnodup⟩, hfresh⟩
          exact ⟨hnodup, fun other hother => ⟨hfirst other hother, hfresh other hother⟩⟩

theorem sortRuntimeFacts_eq {facts : List RuntimeFact}
    (h : (facts.map RuntimeFact.sortKey).Nodup) :
    sortRuntimeFacts facts = .ok (facts.insertionSort RuntimeFact.le) := by
  have hnone : duplicateFact? [] facts = none := duplicateFact?_eq_none.mpr ⟨h, by simp⟩
  rw [sortRuntimeFacts, hnone]

theorem sortRuntimeFacts_ok_iff {facts : List RuntimeFact} :
    (∃ sorted, sortRuntimeFacts facts = .ok sorted) ↔ (facts.map RuntimeFact.sortKey).Nodup := by
  have hdistinct : duplicateFact? [] facts = none ↔ (facts.map RuntimeFact.sortKey).Nodup := by
    simp [duplicateFact?_eq_none]
  unfold sortRuntimeFacts
  cases hduplicate : duplicateFact? [] facts with
  | none => simpa [hduplicate] using hdistinct
  | some fact => simpa [hduplicate] using hdistinct

theorem sortRuntimeFacts_perm {facts facts' sorted : List RuntimeFact} (h : facts.Perm facts')
    (hsorted : sortRuntimeFacts facts = .ok sorted) : sortRuntimeFacts facts' = .ok sorted := by
  have hnodup := sortRuntimeFacts_ok_iff.mp ⟨sorted, hsorted⟩
  have hnodup' := (h.map RuntimeFact.sortKey).nodup_iff.mp hnodup
  have heq := sortRuntimeFacts_eq hnodup
  rw [hsorted] at heq
  cases heq
  rw [sortRuntimeFacts_eq hnodup', Except.ok.injEq]
  refine List.Perm.eq_of_pairwise ?_ (List.pairwise_insertionSort _ _)
    (List.pairwise_insertionSort _ _) (((List.perm_insertionSort _ _).trans h.symm).trans
      (List.perm_insertionSort _ _).symm)
  intro a b ha hb hab hba
  have hmem : a ∈ facts := h.mem_iff.mpr ((List.perm_insertionSort _ _).mem_iff.mp ha)
  have hmem' : b ∈ facts := (List.perm_insertionSort _ _).mem_iff.mp hb
  exact List.inj_on_of_nodup_map hnodup hmem hmem' (RuntimeFact.sortKey_of_le hab hba)

section Inputs

variable {fromisoformat : String → IsoReading}

theorem projectFactInputs_ok_iff {inputs : List FactInput} {login requirement : Option String} :
    (∃ projection, projectFactInputs fromisoformat inputs login requirement = .ok projection) ↔
      ∃ facts, inputs.mapM (RuntimeFact.fromDict fromisoformat) = .ok facts ∧
        (facts.map RuntimeFact.sortKey).Nodup := by
  unfold projectFactInputs
  cases hread : inputs.mapM (RuntimeFact.fromDict fromisoformat) with
  | error message => simp [bind, Except.bind]
  | ok facts =>
      have hsort : (∃ sorted, sortRuntimeFacts facts = .ok sorted) ↔ _ := sortRuntimeFacts_ok_iff
      cases hsorted : sortRuntimeFacts facts with
      | error message =>
          simpa [bind, Except.bind, projectFinalGate, hsorted, Except.map] using hsort
      | ok sorted =>
          simpa [bind, Except.bind, projectFinalGate, hsorted, Except.map] using hsort

theorem projectFactInputs_perm {inputs inputs' : List FactInput} (h : inputs.Perm inputs')
    {login requirement : Option String} {projection : FinalGateProjection}
    (hproject : projectFactInputs fromisoformat inputs login requirement = .ok projection) :
    projectFactInputs fromisoformat inputs' login requirement = .ok projection := by
  unfold projectFactInputs projectFinalGate at *
  cases hread : inputs.mapM (RuntimeFact.fromDict fromisoformat) with
  | error message => simp [hread, bind, Except.bind] at hproject
  | ok facts =>
      obtain ⟨facts', hread', hperm⟩ := mapM_ok_perm h hread
      cases hsorted : sortRuntimeFacts facts with
      | error message => simp [hread, hsorted, bind, Except.bind, Except.map] at hproject
      | ok sorted =>
          have hsorted' := sortRuntimeFacts_perm hperm hsorted
          simpa [hread, hread', hsorted, hsorted', bind, Except.bind, Except.map] using hproject

/-- Facts in another order are accepted alike and give the same projection, and they are accepted
exactly when each can be read and no two have one place in the order. -/
theorem projection_of_reordered_facts {inputs inputs' : List FactInput} (h : inputs.Perm inputs')
    (login requirement : Option String) :
    (projectFactInputs fromisoformat inputs login requirement).toOption =
      (projectFactInputs fromisoformat inputs' login requirement).toOption ∧
    ((∃ projection, projectFactInputs fromisoformat inputs login requirement = .ok projection) ↔
      ∃ facts, inputs.mapM (RuntimeFact.fromDict fromisoformat) = .ok facts ∧
        (facts.map RuntimeFact.sortKey).Nodup) := by
  refine ⟨?_, projectFactInputs_ok_iff⟩
  cases hproject : projectFactInputs fromisoformat inputs login requirement with
  | ok projection => rw [projectFactInputs_perm h hproject]
  | error message =>
      cases hproject' : projectFactInputs fromisoformat inputs' login requirement with
      | error message' => rfl
      | ok projection =>
          rw [projectFactInputs_perm h.symm hproject'] at hproject
          cases hproject

end Inputs

/-- Two observations that come in either order. -/
def observedFacts : List RuntimeFact :=
  [⟨.checkRunObserved, "check-run:lint:0", 0, 1, ∅⟩, ⟨.localItemObserved, "local:f", 0, 0, ∅⟩]

/-- A reader that knows no time. -/
def unread : String → IsoReading := fun _ => .invalid

theorem projection_of_reordered_facts_swapped :
    (projectFactInputs unread (observedFacts.map .fact) none none).toOption =
      (projectFactInputs unread (observedFacts.reverse.map .fact) none none).toOption ∧
    ∃ projection, projectFactInputs unread (observedFacts.map .fact) none none =
      .ok projection := by
  obtain ⟨hsame, haccepted⟩ := projection_of_reordered_facts
    ((List.reverse_perm observedFacts).symm.map FactInput.fact) none none
  exact ⟨hsame, haccepted.mpr ⟨observedFacts, rfl, by decide⟩⟩

/-- The same rows, listed in another order. -/
structure EvidenceBundle.Reordered (b b' : EvidenceBundle) : Prop where
  items : b.items.Perm b'.items
  remoteThreads : b.remoteThreads.Perm b'.remoteThreads
  pendingReviews : b.pendingReviews.Perm b'.pendingReviews
  currentLogin : b.currentLogin = b'.currentLogin
  checkRuns : b.checkRuns.Perm b'.checkRuns
  checkRequirement : b.checkRequirement = b'.checkRequirement
  logicValidationSignals : b.logicValidationSignals.Perm b'.logicValidationSignals

/-- Threads listed under one identifier are all resolved or all open. -/
def ResolvedAlike (threads : List Dict) : Prop :=
  ∀ thread ∈ threads, ∀ other ∈ threads, threadIdentifier thread = threadIdentifier other →
    threadIsResolved thread = threadIsResolved other

/-- Each listed thread has an identifier. -/
def ThreadsIdentified (threads : List Dict) : Prop :=
  ∀ thread ∈ threads, ∃ id, threadIdentifier thread = some id ∧ id ≠ ""

/-- The same counts, and the same rows in another order. -/
structure FinalGateProjection.Reordered (p p' : FinalGateProjection) : Prop where
  counts : p.counts = p'.counts
  unresolvedRemoteThreads : p.unresolvedRemoteThreads.Perm p'.unresolvedRemoteThreads
  missingReplyItems : p.missingReplyItems.Perm p'.missingReplyItems
  historicalReplyItems : p.historicalReplyItems.Perm p'.historicalReplyItems
  blockingGithubItems : p.blockingGithubItems.Perm p'.blockingGithubItems
  blockingLocalItems : p.blockingLocalItems.Perm p'.blockingLocalItems
  missingValidationItems : p.missingValidationItems.Perm p'.missingValidationItems
  pendingCurrentLoginReviews : p.pendingCurrentLoginReviews.Perm p'.pendingCurrentLoginReviews
  failedChecks : p.failedChecks.Perm p'.failedChecks
  pendingChecks : p.pendingChecks.Perm p'.pendingChecks
  logicValidationSignals : p.logicValidationSignals.Perm p'.logicValidationSignals
  blockingLogicValidationSignals :
    p.blockingLogicValidationSignals.Perm p'.blockingLogicValidationSignals
  advisoryLogicValidationSignals :
    p.advisoryLogicValidationSignals.Perm p'.advisoryLogicValidationSignals

/-- What is read of the element found does not depend on the order, where all that can be found
agree on it. -/
theorem find?_map_perm {α β : Type*} {p : α → Bool} {f : α → β} {xs xs' : List α}
    (h : xs.Perm xs') (hagree : ∀ x ∈ xs, ∀ y ∈ xs, p x → p y → f x = f y) :
    (xs.find? p).map f = (xs'.find? p).map f := by
  cases hfind : xs.find? p with
  | none =>
      have hnone : xs'.find? p = none := by
        rw [List.find?_eq_none] at hfind ⊢
        exact fun x hx => hfind x (h.mem_iff.mpr hx)
      rw [hnone]
  | some x =>
      have hmem := List.mem_of_find?_eq_some hfind
      have hp : p x = true := List.find?_some hfind
      obtain ⟨y, hy⟩ := Option.isSome_iff_exists.mp
        (List.find?_isSome.mpr ⟨x, h.mem_iff.mp hmem, hp⟩)
      have hmem' := h.mem_iff.mpr (List.mem_of_find?_eq_some hy)
      rw [hy]
      exact congrArg some (hagree x hmem y hmem' hp (List.find?_some hy))

section Rows

variable {rows rows' : List Dict}

theorem resolved_remoteById (h : rows.Perm rows') (hagree : ResolvedAlike rows)
    (threadId : Option String) :
    (remoteById rows threadId).map threadIsResolved =
      (remoteById rows' threadId).map threadIsResolved := by
  cases threadId with
  | none => rfl
  | some id =>
      by_cases hid : id = ""
      · simp [remoteById, hid]
      · simp only [remoteById, Option.bind_some, hid, if_false]
        have hreversed : rows.reverse.Perm rows'.reverse :=
          ((List.reverse_perm rows).trans h).trans (List.reverse_perm rows').symm
        refine find?_map_perm hreversed fun thread hthread other hother hid hid' => ?_
        refine hagree thread (List.mem_reverse.mp hthread) other (List.mem_reverse.mp hother) ?_
        rw [eq_of_beq hid, eq_of_beq hid']

theorem requiresReply_remoteById (h : rows.Perm rows') (hagree : ResolvedAlike rows) (item : Dict) :
    githubThreadRequiresReplyEvidence item rows = githubThreadRequiresReplyEvidence item rows' := by
  have hresolved := resolved_remoteById h hagree (threadIdentifier item)
  unfold githubThreadRequiresReplyEvidence
  cases hrow : remoteById rows (threadIdentifier item) with
  | none =>
      cases hrow' : remoteById rows' (threadIdentifier item) with
      | none => rfl
      | some thread' => simp [hrow, hrow'] at hresolved
  | some thread =>
      cases hrow' : remoteById rows' (threadIdentifier item) with
      | none => simp [hrow, hrow'] at hresolved
      | some thread' => simpa [hrow, hrow'] using hresolved

theorem isNonBlockingHistoricalReplyGap_congr (item : Dict) {remote remote' : Option Dict}
    (h : remote.map threadIsResolved = remote'.map threadIsResolved) :
    isNonBlockingHistoricalReplyGap item remote = isNonBlockingHistoricalReplyGap item remote' := by
  have hany : remote.any threadIsResolved = remote'.any threadIsResolved := by
    cases remote <;> cases remote' <;> simp_all
  rw [isNonBlockingHistoricalReplyGap, isNonBlockingHistoricalReplyGap, hany]

theorem replyEvidenceDetail_perm (h : rows.Perm rows') (hagree : ResolvedAlike rows)
    (item : Dict) : replyEvidenceDetail rows item = replyEvidenceDetail rows' item := by
  have hgap := isNonBlockingHistoricalReplyGap_congr item
    (resolved_remoteById h hagree (threadIdentifier item))
  rw [replyEvidenceDetail, replyEvidenceDetail, hgap]

theorem replyEvidenceDetails_perm {items items' : List Dict} (hitems : items.Perm items')
    (h : rows.Perm rows') (hagree : ResolvedAlike rows) (login : Option String) :
    (replyEvidenceDetails items rows login).Perm (replyEvidenceDetails items' rows' login) := by
  have hfilter : (fun item => githubThreadRequiresReplyEvidence item rows &&
      !hasReplyEvidence item login) = fun item => githubThreadRequiresReplyEvidence item rows' &&
        !hasReplyEvidence item login :=
    funext fun item => by rw [requiresReply_remoteById h hagree]
  have hdetail : replyEvidenceDetail rows = replyEvidenceDetail rows' :=
    funext fun item => replyEvidenceDetail_perm h hagree item
  rw [replyEvidenceDetails, replyEvidenceDetails, hfilter, hdetail]
  exact (hitems.filter _).map _

end Rows

theorem checksRequired_perm {rows rows' : List Dict} (h : rows.Perm rows')
    (requirement : Option String) :
    (given? (mergedCheckRequirement requirement rows)).isSome =
      (given? (mergedCheckRequirement requirement rows')).isSome := by
  rw [Bool.eq_iff_iff, mergedCheckRequirement_given, mergedCheckRequirement_given]
  simp only [h.mem_iff]

theorem projectSortedFacts_reordered {facts facts' : List RuntimeFact}
    (h : ∀ kind, (payloadsOf kind facts).Perm (payloadsOf kind facts'))
    (hagree : ResolvedAlike ((payloadsOf .reviewThreadObserved facts).filter
      isRemoteThreadPayload)) (login requirement : Option String) :
    (projectSortedFacts facts login requirement).Reordered
      (projectSortedFacts facts' login requirement) := by
  have hthreads := h .reviewThreadObserved
  have hrows := hthreads.filter isRemoteThreadPayload
  have hgithub := hthreads.filter fun payload =>
    !isRemoteThreadPayload payload && itemKind payload == "github_thread"
  have hlocal := h .localItemObserved
  have hreviews := h .pendingReviewObserved
  have hchecks := h .checkRunObserved
  have hsignals := h .logicValidationObserved
  have hdetails := replyEvidenceDetails_perm hgithub hrows hagree login
  have hrequired := checksRequired_perm hchecks requirement
  have hfailed := (hchecks.filter isFailedCheck).length_eq
  have hpending := (hchecks.filter isPendingCheck).length_eq
  have hempty := hchecks.isEmpty_eq
  exact
    { counts := by
        simp only [projectSortedFacts, FinalGateCounts.mk.injEq]
        refine ⟨(hrows.filter _).length_eq, (hreviews.filter _).length_eq,
          ((hgithub.append hlocal).filter _).length_eq, (hgithub.filter _).length_eq,
          (hdetails.filter _).length_eq, (hlocal.filter _).length_eq, (hlocal.filter _).length_eq,
          (hreviews.filter _).length_eq, (hrows.filter _).length_eq, hchecks.length_eq, hfailed,
          hpending, ?_, (hsignals.filter _).length_eq, (hsignals.filter _).length_eq, ?_⟩
        · rw [hrequired, hfailed, hpending]
        · rw [hrequired, hempty]
      unresolvedRemoteThreads := hrows.filter _
      missingReplyItems := hdetails.filter _
      historicalReplyItems := hdetails.filter _
      blockingGithubItems := hgithub.filter _
      blockingLocalItems := hlocal.filter _
      missingValidationItems := hlocal.filter _
      pendingCurrentLoginReviews := hreviews.filter _
      failedChecks := hchecks.filter _
      pendingChecks := hchecks.filter _
      logicValidationSignals := hsignals
      blockingLogicValidationSignals := hsignals.filter _
      advisoryLogicValidationSignals := hsignals.filter _ }

theorem logicValidationCodes_perm {signals signals' : List Dict} (h : signals.Perm signals') :
    logicValidationCodes signals = logicValidationCodes signals' := by
  have htypes := h.map signalType
  have hcontains : ∀ type, (signals.map signalType).contains type =
      (signals'.map signalType).contains type := by
    intro type
    simp only [List.contains_eq_mem, htypes.mem_iff]
  have hany : ∀ p : String → Bool,
      (signals.map signalType).any p = (signals'.map signalType).any p := fun p => htypes.any_eq
  simp only [logicValidationCodes, hcontains, hany]

/-- The decision depends on the counts and on which kinds of signals block. -/
theorem FinalGateProjection.Reordered.decision {p p' : FinalGateProjection} (h : p.Reordered p') :
    evaluateFinalGatePolicy p = evaluateFinalGatePolicy p' := by
  have hcodes : failureCodes p = failureCodes p' := by
    unfold failureCodes
    rw [h.counts, logicValidationCodes_perm h.blockingLogicValidationSignals]
  rw [evaluateFinalGatePolicy, evaluateFinalGatePolicy, hcodes]

theorem remoteThreadId_of_identified {thread : Dict} {id : String}
    (h : threadIdentifier thread = some id) (hid : id ≠ "") (index : ℕ) :
    remoteThreadId thread index = id := by
  have hfilter : (some id).filter (· ≠ "") = some id := given?_eq_some.mpr ⟨rfl, hid⟩
  rw [remoteThreadId, h, hfilter]
  rfl

/-- The payload of an identified thread, wherever it is listed. -/
theorem remoteThreadPayload_of_identified {thread : Dict} {id : String}
    (h : threadIdentifier thread = some id) (hid : id ≠ "") (i j : ℕ) :
    remoteThreadPayload thread i = remoteThreadPayload thread j := by
  rw [remoteThreadPayload, remoteThreadPayload, remoteThreadId_of_identified h hid,
    remoteThreadId_of_identified h hid]

theorem remoteThreadRows_eq {b : EvidenceBundle} (h : ThreadsIdentified b.remoteThreads) :
    b.remoteThreadRows = b.remoteThreads.map fun thread => remoteThreadPayload thread 0 := by
  rw [← map_zipIdx, EvidenceBundle.remoteThreadRows]
  refine List.map_congr_left fun entry hentry => ?_
  obtain ⟨id, hid, hne⟩ := h entry.1 (List.fst_mem_of_mem_zipIdx hentry)
  exact remoteThreadPayload_of_identified hid hne _ _

theorem resolvedAlike_rows {b : EvidenceBundle} (hidentified : ThreadsIdentified b.remoteThreads)
    (h : ResolvedAlike b.remoteThreads) : ResolvedAlike b.remoteThreadRows := by
  rw [remoteThreadRows_eq hidentified]
  intro row hrow other hother hsame
  obtain ⟨thread, hthread, rfl⟩ := List.mem_map.mp hrow
  obtain ⟨thread', hthread', rfl⟩ := List.mem_map.mp hother
  obtain ⟨id, hid, hne⟩ := hidentified thread hthread
  obtain ⟨id', hid', hne'⟩ := hidentified thread' hthread'
  rw [threadIdentifier_remoteThreadPayload, threadIdentifier_remoteThreadPayload,
    remoteThreadId_of_identified hid hne, remoteThreadId_of_identified hid' hne', ← hid, ← hid']
    at hsame
  rw [threadIsResolved_remoteThreadPayload, threadIsResolved_remoteThreadPayload]
  exact h thread hthread thread' hthread' hsame

theorem payloadsOf_reordered {b b' : EvidenceBundle} (h : b.Reordered b')
    (hidentified : ThreadsIdentified b.remoteThreads) (kind : FactKind) :
    (payloadsOf kind (buildFinalGateFacts b)).Perm (payloadsOf kind (buildFinalGateFacts b')) := by
  have hidentified' : ThreadsIdentified b'.remoteThreads :=
    fun thread hthread => hidentified thread (h.remoteThreads.mem_iff.mpr hthread)
  rw [payloadsOf_buildFinalGateFacts, payloadsOf_buildFinalGateFacts,
    remoteThreadRows_eq hidentified, remoteThreadRows_eq hidentified', h.currentLogin,
    h.checkRequirement]
  cases kind with
  | reviewThreadObserved => exact ((h.items.filter _).map _).append (h.remoteThreads.map _)
  | localItemObserved => exact (h.items.filter _).map _
  | pendingReviewObserved => exact h.pendingReviews.map _
  | checkRunObserved => exact h.checkRuns.map _
  | logicValidationObserved => exact h.logicValidationSignals

/-- The gate decides alike on two listings of the same evidence: the same counts and the same rows,
the same failure codes in the same order, the same reason and the same wait. -/
theorem decision_of_reordered_evidence {b b' : EvidenceBundle} (h : b.Reordered b')
    (hidentified : ThreadsIdentified b.remoteThreads)
    (halike : ResolvedAlike b.remoteThreads) :
    ∃ p p', projectFinalGate (buildFinalGateFacts b) b.currentLogin b.checkRequirement = .ok p ∧
      projectFinalGate (buildFinalGateFacts b') b'.currentLogin b'.checkRequirement = .ok p' ∧
      p.Reordered p' ∧ evaluateFinalGatePolicy p = evaluateFinalGatePolicy p' := by
  have hproject : ∀ bundle : EvidenceBundle, projectFinalGate (buildFinalGateFacts bundle)
      bundle.currentLogin bundle.checkRequirement = .ok (projectSortedFacts
        (buildFinalGateFacts bundle) bundle.currentLogin bundle.checkRequirement) := by
    intro bundle
    rw [projectFinalGate, buildFinalGateFacts, sortRuntimeFacts_appendFacts]
    rfl
  have hrows : ResolvedAlike ((payloadsOf .reviewThreadObserved (buildFinalGateFacts b)).filter
      isRemoteThreadPayload) := by
    rw [payloadsOf_buildFinalGateFacts, filter_isRemoteThreadPayload]
    exact resolvedAlike_rows hidentified halike
  have hreordered := projectSortedFacts_reordered (payloadsOf_reordered h hidentified) hrows
    b.currentLogin b.checkRequirement
  refine ⟨_, _, hproject b, hproject b', ?_, ?_⟩
  · rwa [← h.currentLogin, ← h.checkRequirement]
  · rw [← h.currentLogin, ← h.checkRequirement]
    exact hreordered.decision

def pendingThread : Dict := Dict.ofFields [("id", .str "a"), ("state", .str "open")]

def settledThread : Dict := Dict.ofFields [("id", .str "b"), ("isResolved", .bool true)]

def listedThreads : EvidenceBundle :=
  { emptyBundle with remoteThreads := [pendingThread, settledThread] }

theorem listedThreads_identified :
    threadIdentifier pendingThread = some "a" ∧ threadIdentifier settledThread = some "b" := by
  decide +kernel

theorem decision_of_reordered_evidence_threads :
    ∃ p p', projectFinalGate (buildFinalGateFacts listedThreads) none none = .ok p ∧
      projectFinalGate (buildFinalGateFacts
        { emptyBundle with remoteThreads := [settledThread, pendingThread] }) none none = .ok p' ∧
      p.Reordered p' ∧ evaluateFinalGatePolicy p = evaluateFinalGatePolicy p' := by
  obtain ⟨hopen, hdone⟩ := listedThreads_identified
  refine decision_of_reordered_evidence (b := listedThreads)
    { items := .refl _, remoteThreads := .swap _ _ _, pendingReviews := .refl _
      currentLogin := rfl, checkRuns := .refl _, checkRequirement := rfl
      logicValidationSignals := .refl _ } ?_ ?_
  · intro thread hthread
    simp only [listedThreads, List.mem_cons, List.not_mem_nil, or_false] at hthread
    rcases hthread with rfl | rfl
    · exact ⟨"a", hopen, by decide⟩
    · exact ⟨"b", hdone, by decide⟩
  · intro thread hthread other hother hsame
    simp only [listedThreads, List.mem_cons, List.not_mem_nil, or_false] at hthread hother
    rcases hthread with rfl | rfl <;> rcases hother with rfl | rfl
    · rfl
    · simp [hopen, hdone] at hsame
    · simp [hopen, hdone] at hsame
    · rfl

end GhAddressCr
