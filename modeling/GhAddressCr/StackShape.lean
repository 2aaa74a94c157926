import GhAddressCr.StackGate

/-!
# The shape of a stack

A present context is a chain of pull requests: some merged ones below, and above them each one
based on the head of the one under it. A selection cuts the chain into three consecutive parts.
-/
namespace GhAddressCr

open PyText

/-- A list sorted by a measure is what lies up to a bound, then what lies beyond it. -/
theorem filter_le_append_filter_lt {α β : Type*} [LinearOrder β] (f : α → β) (bound : β)
    {l : List α} (hsorted : l.Pairwise fun a b => f a ≤ f b) :
    l.filter (fun a => f a ≤ bound) ++ l.filter (fun a => bound < f a) = l := by
  induction l with
  | nil => rfl
  | cons a l ih =>
      obtain ⟨hle, hrest⟩ := List.pairwise_cons.mp hsorted
      by_cases ha : f a ≤ bound
      · rw [List.filter_cons_of_pos (by simpa using ha),
          List.filter_cons_of_neg (by simpa using ha), List.cons_append, ih hrest]
      · have hlt : ∀ b ∈ a :: l, bound < f b := by
          intro b hb
          rcases List.mem_cons.mp hb with rfl | hb
          · exact not_le.mp ha
          · exact (not_le.mp ha).trans_le (hle b hb)
        have hnone : (a :: l).filter (fun b => f b ≤ bound) = [] :=
          List.filter_eq_nil_iff.mpr fun b hb => by simpa using hlt b hb
        have hall : (a :: l).filter (fun b => bound < f b) = a :: l :=
          List.filter_eq_self.mpr fun b hb => by simpa using hlt b hb
        rw [hnone, hall, List.nil_append]

/-- The members above the merged ones: the lowest is based on the trunk, and each later one on
the head of the one below it. -/
structure ActiveChain (trunkRefName : String) (active : List PullRequestMemberFact) : Prop where
  unmerged : ∀ member ∈ active, member.state ≠ .merged
  lowest : ∀ member ∈ active.head?, member.baseRefName = trunkRefName
  chained : active.IsChain fun lower upper => upper.baseRefName = lower.headRefName

structure WellFormedStack (context : StackContext) : Prop where
  two : 2 ≤ context.members.length
  positions : ∀ (i : Nat) (member : PullRequestMemberFact), context.members[i]? = some member →
    member.position = i + 1
  numbers : (context.members.map (·.prNumber)).Nodup
  selected : ∃ member, context.selectedPr = some member ∧
    context.members.filter (·.prNumber = context.selectedPrNumber) = [member]
  layers : ∃ merged active trunkRefName, context.members = merged ++ active ∧
    (∀ member ∈ merged, member.state = .merged) ∧
      context.trunkRefName = some trunkRefName ∧ ActiveChain trunkRefName active

/-- The members that `_stack_invariant_failure` lets pass. -/
structure PassesInvariants (members : List PullRequestMemberFact)
    (selectedPrNumber trunkRefName : String) : Prop where
  two : 2 ≤ members.length
  positions : ∀ (i : Nat) (member : PullRequestMemberFact), members[i]? = some member →
    member.position = i + 1
  numbers : (members.map (·.prNumber)).Nodup
  selected : members.countP (·.prNumber = selectedPrNumber) = 1
  chain : ActiveChain trunkRefName (members.dropWhile (·.state = .merged))

theorem dependencyChainHolds_iff {members : List PullRequestMemberFact} :
    dependencyChainHolds members = true ↔
      members.IsChain fun lower upper => upper.baseRefName = lower.headRefName := by
  induction members with
  | nil => simp [dependencyChainHolds]
  | cons lower members ih =>
      cases members with
      | nil => simp [dependencyChainHolds]
      | cons upper rest => simp [dependencyChainHolds, ih]

theorem getElem?_contiguous {positions : List Int} {size : Nat}
    (h : positions = (List.range size).map fun i => (i : Int) + 1) {i : Nat} (hi : i < size) :
    positions[i]? = some ((i : Int) + 1) := by
  rw [h]
  simp [hi, ← List.map_eq_flatMap]

theorem PassesInvariants.of_none {members : List PullRequestMemberFact}
    {selectedPrNumber trunkRefName : String}
    (h : stackInvariantFailure members selectedPrNumber trunkRefName = none) :
    PassesInvariants members selectedPrNumber trunkRefName := by
  unfold stackInvariantFailure at h
  simp only at h
  split_ifs at h with htwo hpositions hnumbers hselected hmerged hdependency
  · split at h
    · next hactive => simp [hactive, dependencyChainHolds] at hdependency
    · split at h <;> cases h
  · refine ⟨by omega, ?_, hnumbers, not_not.mp hselected, by simpa using hmerged, ?_,
      dependencyChainHolds_iff.mp (by simpa using hdependency)⟩
    · intro i member hmember
      obtain ⟨hlt, -⟩ := List.getElem?_eq_some_iff.mp hmember
      have hat := getElem?_contiguous (not_not.mp hpositions) hlt
      rw [List.getElem?_map, hmember] at hat
      exact Option.some.inj hat
    · split at h
      · next hactive => simp [hactive]
      · next lowest rest hactive =>
        split at h
        · cases h
        · next hlowest => simpa [hactive] using hlowest

theorem PassesInvariants.positions_sorted {members : List PullRequestMemberFact}
    {selectedPrNumber trunkRefName : String}
    (h : PassesInvariants members selectedPrNumber trunkRefName) :
    members.Pairwise fun a b => a.position ≤ b.position := by
  rw [List.pairwise_iff_getElem]
  intro i j hi hj hlt
  have hlower := h.positions i members[i] (List.getElem?_eq_getElem hi)
  have hupper := h.positions j members[j] (List.getElem?_eq_getElem hj)
  omega

/-- The one member with the selected number. -/
theorem PassesInvariants.filter_selected {members : List PullRequestMemberFact}
    {selectedPrNumber trunkRefName : String} {member : PullRequestMemberFact}
    (h : PassesInvariants members selectedPrNumber trunkRefName)
    (hfind : members.find? (·.prNumber = selectedPrNumber) = some member) :
    members.filter (·.prNumber = selectedPrNumber) = [member] := by
  have hlength : (members.filter (·.prNumber = selectedPrNumber)).length = 1 := by
    rw [← List.countP_eq_length_filter]
    exact h.selected
  have hhead : (members.filter (·.prNumber = selectedPrNumber)).head? = some member := by
    rw [List.head?_filter]
    exact hfind
  obtain ⟨only, honly⟩ := List.length_eq_one_iff.mp hlength
  rw [honly] at hhead ⊢
  simpa using hhead

/-- The merged members come first, and the others after them. -/
theorem mergedLayers (members : List PullRequestMemberFact) :
    members = members.takeWhile (·.state = .merged) ++ members.dropWhile (·.state = .merged) ∧
      ∀ member ∈ members.takeWhile (·.state = .merged), member.state = .merged := by
  refine ⟨List.takeWhile_append_dropWhile.symm, fun member hmember => ?_⟩
  have hall := List.all_eq_true.mp (@List.all_takeWhile _
    (fun member : PullRequestMemberFact => decide (member.state = .merged)) members) member hmember
  simpa using hall

/-- A present context comes from members that pass the invariants. -/
theorem projectMembers_present {header : ObservationHeader} {payload : Dict}
    {facts : List PullRequestMemberFact} {context : StackContext}
    (h : projectMembers header payload facts = some context)
    (hpresent : context.availability = .present) :
    ∃ trunkRefName member,
      PassesInvariants context.members context.selectedPrNumber trunkRefName ∧
        context.members.find? (·.prNumber = context.selectedPrNumber) = some member ∧
        context.selectedPr = some member ∧ context.trunkRefName = some trunkRefName ∧
        context.selectedPosition = some member.position := by
  have hinvalid : ∀ invariant, header.invalid invariant ≠ context := by
    rintro invariant rfl
    cases hpresent
  unfold projectMembers at h
  simp only at h
  split at h
  · exact absurd (Option.some.inj h) (hinvalid _)
  · next hnone =>
    obtain ⟨member, hfind, hcontext⟩ := Option.map_eq_some_iff.mp h
    split at hcontext
    · exact absurd hcontext (hinvalid _)
    · split at hcontext
      · exact absurd hcontext (hinvalid _)
      · split at hcontext
        · exact absurd hcontext (hinvalid _)
        · subst hcontext
          exact ⟨_, member, .of_none hnone, hfind, rfl, rfl, rfl⟩

theorem projectStackContext_present {payload : Dict} {context : StackContext}
    (h : projectStackContext payload = some context)
    (hpresent : context.availability = .present) :
    ∃ trunkRefName member,
      PassesInvariants context.members context.selectedPrNumber trunkRefName ∧
        context.members.find? (·.prNumber = context.selectedPrNumber) = some member ∧
        context.selectedPr = some member ∧ context.trunkRefName = some trunkRefName ∧
        context.selectedPosition = some member.position := by
  have hinvalid : ∀ (header : ObservationHeader) invariant, header.invalid invariant ≠ context := by
    rintro header invariant rfl
    cases hpresent
  unfold projectStackContext at h
  simp only at h
  split at h
  · exact absurd (Option.some.inj h) (hinvalid _ _)
  · split at h
    · exact absurd (Option.some.inj h) (hinvalid _ _)
    · rw [← Option.some.inj h] at hpresent
      cases hpresent
    · exact absurd (Option.some.inj h) (hinvalid _ _)
    · unfold projectAbsent at h
      split at h
      · exact absurd (Option.some.inj h) (hinvalid _ _)
      · split at h
        · cases h
        · exact absurd (Option.some.inj h) (hinvalid _ _)
        · split at h
          · exact absurd (Option.some.inj h) (hinvalid _ _)
          · rw [← Option.some.inj h] at hpresent
            cases hpresent
    · unfold projectPresent at h
      split at h
      · split at h
        · exact absurd (Option.some.inj h) (hinvalid _ _)
        · split at h
          · cases h
          · exact absurd (Option.some.inj h) (hinvalid _ _)
          · exact projectMembers_present h hpresent
      · exact absurd (Option.some.inj h) (hinvalid _ _)

/-- `stack_context_for_member`. -/
def stackContextForMember (context : StackContext) (prNumber : String) : StackContext :=
  if context.availability ≠ .present then context
  else
    match context.members.find? (·.prNumber = prNumber) with
    | none =>
        invalidContext context.repo prNumber context.observedAt "selected_member_missing"
    | some selected =>
        { context with
          selectedPrNumber := prNumber, selectedPosition := some selected.position
          selectedPr := some selected }

/-- The members of a segment, from the bottom to the top. -/
def StackSegmentProjection.parts (segment : StackSegmentProjection) :
    List PullRequestMemberFact :=
  segment.mergedPrefix ++ segment.includedMembers ++ segment.excludedUpperMembers

/-- Wherever the selection stands, the parts of a segment are the members. -/
theorem PassesInvariants.segment_parts {context : StackContext}
    {selectedPrNumber trunkRefName : String}
    (h : PassesInvariants context.members selectedPrNumber trunkRefName)
    (hpresent : context.availability = .present) {position : Int}
    (hposition : context.selectedPosition = some position) :
    (projectStackSegment context).parts = context.members := by
  obtain ⟨hlayers, hmerged⟩ := mergedLayers context.members
  have hstart : context.members.filter (·.state = .merged) =
      context.members.takeWhile (·.state = .merged) := by
    have hnone : (context.members.dropWhile (·.state = .merged)).filter (·.state = .merged) = [] :=
      List.filter_eq_nil_iff.mpr fun member hmember => by
        simpa using h.chain.unmerged member hmember
    have hall : (context.members.takeWhile (·.state = .merged)).filter (·.state = .merged) =
        context.members.takeWhile (·.state = .merged) :=
      List.filter_eq_self.mpr fun member hmember => by simpa using hmerged member hmember
    conv_lhs => rw [hlayers]
    rw [List.filter_append, hnone, hall, List.append_nil]
  have hactive : context.members.filter (·.state ≠ .merged) =
      context.members.dropWhile (·.state = .merged) := by
    have hnone : (context.members.takeWhile (·.state = .merged)).filter (·.state ≠ .merged) = [] :=
      List.filter_eq_nil_iff.mpr fun member hmember => by simpa using hmerged member hmember
    have hall : (context.members.dropWhile (·.state = .merged)).filter (·.state ≠ .merged) =
        context.members.dropWhile (·.state = .merged) :=
      List.filter_eq_self.mpr fun member hmember => by
        simpa using h.chain.unmerged member hmember
    conv_lhs => rw [hlayers]
    rw [List.filter_append, hnone, hall, List.nil_append]
  have hsorted : (context.members.dropWhile (·.state = .merged)).Pairwise
      fun a b => a.position ≤ b.position :=
    h.positions_sorted.sublist (List.dropWhile_sublist _)
  have hcut := filter_le_append_filter_lt PullRequestMemberFact.position position hsorted
  have hsegment : projectStackSegment context =
      ⟨context.members.takeWhile (·.state = .merged),
        (context.members.dropWhile (·.state = .merged)).filter (·.position ≤ position),
        (context.members.dropWhile (·.state = .merged)).filter (position < ·.position)⟩ := by
    unfold projectStackSegment
    rw [hpresent, hposition]
    simp only [hstart, hactive]
  rw [hsegment, StackSegmentProjection.parts, List.append_assoc, hcut]
  exact hlayers.symm

/-- A present context is a well-formed stack, and every selection splits its members. -/
theorem projectStackContext_wellFormed {payload : Dict} {context : StackContext}
    (h : projectStackContext payload = some context)
    (hpresent : context.availability = .present) :
    WellFormedStack context ∧ ∀ member ∈ context.members,
      (projectStackSegment (stackContextForMember context member.prNumber)).parts =
        context.members := by
  obtain ⟨trunkRefName, selected, hpasses, hfind, hselected, htrunk, -⟩ :=
    projectStackContext_present h hpresent
  obtain ⟨hlayers, hmerged⟩ := mergedLayers context.members
  constructor
  · exact {
      two := hpasses.two
      positions := hpasses.positions
      numbers := hpasses.numbers
      selected := ⟨selected, hselected, hpasses.filter_selected hfind⟩
      layers := ⟨_, _, trunkRefName, hlayers, hmerged, htrunk, hpasses.chain⟩ }
  · intro member hmember
    obtain ⟨found, hfound⟩ : ∃ found,
        context.members.find? (·.prNumber = member.prNumber) = some found :=
      Option.isSome_iff_exists.mp (List.find?_isSome.mpr ⟨member, hmember, by simp⟩)
    have hselection : stackContextForMember context member.prNumber =
        { context with
          selectedPrNumber := member.prNumber, selectedPosition := some found.position
          selectedPr := some found } := by
      simp only [stackContextForMember, hpresent, hfound, ne_eq, not_true_eq_false, if_false]
    rw [hselection]
    exact PassesInvariants.segment_parts hpasses hpresent rfl

/-- Two open pull requests, one on top of the other. -/
theorem projectStackContext_wellFormed_open : ∃ context,
    projectStackContext (sampleStackObservation "OPEN" "OPEN") = some context ∧
      WellFormedStack context ∧ ∀ member ∈ context.members,
        (projectStackSegment (stackContextForMember context member.prNumber)).parts =
          context.members := by
  have h : (projectStackContext (sampleStackObservation "OPEN" "OPEN")).any (fun context =>
      context.availability = .present) = true := by decide +kernel
  obtain ⟨context, hcontext, hpresent⟩ := (Option.any_eq_true _ _).mp h
  exact ⟨context, hcontext,
    projectStackContext_wellFormed hcontext (of_decide_eq_true hpresent)⟩

end GhAddressCr
