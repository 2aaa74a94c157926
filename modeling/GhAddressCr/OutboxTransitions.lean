import GhAddressCr.OutboxInvariant

/-!
# Transitions of outbox rows

Each step of each process keeps the invariant and changes outbox rows only as permitted;
so it is in every run.
-/
namespace GhAddressCr.SideEffectExecution

open RuntimeStore SideEffectOutbox

variable {P : Type} {site : Site P} {w : World P}

section Steps

variable [DecidableEq P] {p : P}

theorem Moves.setActivity {activity : Activity} (store : Store)
    (hguard : ∀ effect token, activity.guard = some (effect, token) →
      (w.activity p).guard = some (effect, token)) :
    Moves w { w.setActivity p activity with store := store } p where
  others q hne := Function.update_of_ne hne _ _
  guard effect token h := by
    have hself : Function.update w.activity p activity p = activity := Function.update_self _ _ _
    exact hguard effect token (by rwa [← hself])
  issued := rfl
  locks _ _ hlock _ := hlock

theorem Moves.stop (store : Store) : Moves w { w.stop p with store := store } p where
  others q hne := Function.update_of_ne hne _ _
  guard effect token h := by
    have hself : Function.update w.activity p .idle p = .idle := Function.update_self _ _ _
    rw [show ({ w.stop p with store := store } : World P).activity p = .idle from hself] at h
    cases h
  issued := rfl
  locks q commandId hlock hkept := by
    have hself : Function.update w.activity p .idle p = .idle := Function.update_self _ _ _
    rcases hkept with hne | hguard
    · show (if w.locks commandId = some p then none else w.locks commandId) = some q
      rw [hlock, if_neg fun hsame => hne (Option.some.inj hsame)]
    · rw [show ({ w.stop p with store := store } : World P).activity p = .idle from hself]
        at hguard
      cases hguard

/-- What is shown of each step of a process. -/
structure StepSpec (site : Site P) (w : World P) (p : P) (w' : World P) : Prop where
  invariant : Invariant site w'
  rows : RowsEvolve site w p w'.store
  others : ∀ q, q ≠ p → w'.activity q = w.activity q

theorem StepSpec.setActivity (h : Invariant site w) {activity : Activity}
    (hguard : ∀ effect token, activity.guard = some (effect, token) →
      (w.activity p).guard = some (effect, token))
    (hconsistent : Consistent site (w.setActivity p activity) activity) :
    StepSpec site w p (w.setActivity p activity) := by
  have hrows : RowsEvolve site w p (w.setActivity p activity).store := .refl p _ rfl
  refine ⟨h.moves (Moves.setActivity w.store hguard) hrows ?_, hrows,
    (Moves.setActivity w.store hguard).others⟩
  have hself : (w.setActivity p activity).activity p = activity := Function.update_self _ _ _
  rw [hself]
  exact hconsistent

/-- A process without a side effect under its lock goes on to another such activity. -/
theorem StepSpec.quiet (h : Invariant site w) {activity : Activity} (hguard : activity.guard = none)
    (hconsistent : Consistent site (w.setActivity p activity) activity) :
    StepSpec site w p (w.setActivity p activity) := by
  refine StepSpec.setActivity h (fun effect token hsome => ?_) hconsistent
  rw [hguard] at hsome
  cases hsome

theorem StepSpec.stop (h : Invariant site w) : StepSpec site w p (w.stop p) := by
  have hrows : RowsEvolve site w p (w.stop p).store := .refl p _ rfl
  refine ⟨h.moves (Moves.stop w.store) hrows ?_, hrows, (Moves.stop w.store).others⟩
  have hself : (w.stop p).activity p = .idle := Function.update_self _ _ _
  rw [hself]
  trivial

theorem StepSpec.commit (h : Invariant site w) {activity : Activity} {result : StoreResult Store}
    (hguard : ∀ effect token, activity.guard = some (effect, token) →
      (w.activity p).guard = some (effect, token))
    (hok : ∀ store, result = .ok store → RowsEvolve site w p store ∧
      Consistent site { w.setActivity p activity with store := store } activity) :
    StepSpec site w p (w.commit p activity result) := by
  cases result with
  | error e => exact StepSpec.stop h
  | ok store =>
      obtain ⟨hrows, hconsistent⟩ := hok store rfl
      refine ⟨h.moves (Moves.setActivity store hguard) hrows ?_, hrows,
        (Moves.setActivity store hguard).others⟩
      have hself : Function.update w.activity p activity p = activity :=
        Function.update_self _ _ _
      show Consistent site { w.setActivity p activity with store := store }
        (Function.update w.activity p activity p)
      rwa [hself]

theorem StepSpec.commitAndStop (h : Invariant site w) {result : StoreResult Store}
    (hok : ∀ store, result = .ok store → RowsEvolve site w p store) :
    StepSpec site w p (w.commitAndStop p result) := by
  cases result with
  | error e => exact StepSpec.stop h
  | ok store =>
      have hrows := hok store rfl
      refine ⟨h.moves (Moves.stop store) hrows ?_, hrows, (Moves.stop store).others⟩
      have hself : Function.update w.activity p .idle p = .idle := Function.update_self _ _ _
      show Consistent site { w.stop p with store := store } (Function.update w.activity p .idle p)
      rw [hself]
      trivial

/-- A free lock under a fresh token. -/
theorem StepSpec.acquire (h : Invariant site w) {effect : SideEffect} {token : String}
    (hidle : (w.activity p).guard = none) (hfree : w.locks (effect.commandId site) = none)
    (hfresh : token ∉ w.issued) :
    StepSpec site w p { w.setActivity p (.guarded effect token .read) with
      locks := Function.update w.locks (effect.commandId site) (some p)
      issued := token :: w.issued } := by
  set w' : World P := { w.setActivity p (.guarded effect token .read) with
    locks := Function.update w.locks (effect.commandId site) (some p)
    issued := token :: w.issued } with hw'
  have hself : w'.activity p = .guarded effect token .read := Function.update_self _ _ _
  have hother : ∀ q, q ≠ p → w'.activity q = w.activity q := fun q hne =>
    Function.update_of_ne hne _ _
  have hguards : ∀ q commandId other, Guards site w' q commandId other →
      Guards site w q commandId other ∨ other = token := by
    intro q commandId other hq
    obtain ⟨effect', hguard, hcommand⟩ := hq
    by_cases hsame : q = p
    · subst hsame
      rw [hself] at hguard
      exact Or.inr (Prod.mk.inj (Option.some.inj hguard)).2.symm
    · rw [hother q hsame] at hguard
      exact Or.inl ⟨effect', hguard, hcommand⟩
  have hdead : ∀ command, Dead site w command → Dead site w' command := by
    intro command hcommand other hother'
    obtain ⟨hissued, hnone⟩ := hcommand other hother'
    refine ⟨List.mem_cons_of_mem _ hissued, fun q hq => ?_⟩
    rcases hguards q command.1 other hq with hold | hsame
    · exact hnone q hold
    · exact hfresh (hsame ▸ hissued)
  refine ⟨⟨?_, ?_, ?_, h.reference⟩, .refl p _ rfl, hother⟩
  · intro q
    by_cases hsame : q = p
    · subst hsame
      rw [hself]
      trivial
    · rw [hother q hsame]
      have hold := h.consistent q
      revert hold
      cases w.activity q with
      | probing remaining dead resume =>
          exact fun hold =>
            ⟨fun command hmem other htoken =>
              List.mem_cons_of_mem _ (hold.1 command hmem other htoken),
              fun command hmem => hdead command (hold.2 command hmem)⟩
      | demoting dead resume => exact fun hold command hmem => hdead command (hold command hmem)
      | guarded effect' token' phase => cases phase <;> exact id
      | finishing effect' owner ended phase => cases owner <;> exact id
      | _ => exact id
  · intro q effect' other hguard
    by_cases hsame : q = p
    · subst hsame
      rw [hself] at hguard
      obtain ⟨rfl, rfl⟩ := Prod.mk.inj (Option.some.inj hguard)
      exact ⟨Function.update_self _ _ _, List.mem_cons_self⟩
    · rw [hother q hsame] at hguard
      obtain ⟨hlock, hissued⟩ := h.locked q effect' other hguard
      refine ⟨?_, List.mem_cons_of_mem _ hissued⟩
      have hne : effect'.commandId site ≠ effect.commandId site := by
        intro hcommand
        rw [hcommand, hfree] at hlock
        cases hlock
      exact (Function.update_of_ne hne _ _).trans hlock
  · intro commandId row other hrow htoken
    exact List.mem_cons_of_mem _ (h.tokenIssued commandId row other hrow htoken)

theorem StepSpec.stateRead (h : Invariant site w) (effect : SideEffect) (recovered : Bool) :
    StepSpec site w p (w.setActivity p (stateRead site w effect recovered)) := by
  unfold SideEffectExecution.stateRead
  split
  case h_1 => exact StepSpec.quiet h rfl trivial
  case h_2 row hrow =>
      cases hstatus : row.status with
      | inFlight => cases recovered <;> exact StepSpec.quiet h rfl trivial
      | succeeded =>
          dsimp only
          split <;> exact StepSpec.quiet h rfl trivial
      | unknown =>
          dsimp only
          split
          · exact StepSpec.quiet h rfl (settledCommand_of_unknown (w := w) hrow hstatus)
          · exact StepSpec.quiet h rfl trivial
      | planned => exact StepSpec.quiet h rfl trivial
      | failed => exact StepSpec.quiet h rfl trivial

theorem StepSpec.advanceGuarded (h : Invariant site w) {choice : Choice} {effect : SideEffect}
    {token : String} {phase : GuardPhase} {w' : World P}
    (hactivity : w.activity p = .guarded effect token phase)
    (hstep : advanceGuarded site w p choice effect token phase = some w') :
    StepSpec site w p w' := by
  have hguard : (w.activity p).guard = some (effect, token) := by rw [hactivity]; rfl
  have hsame : ∀ other token', Activity.guard (.guarded effect token phase) = some (other, token') →
      (w.activity p).guard = some (other, token') := by
    intro other token' hsome
    rw [hactivity, hsome]
  cases phase with
  | read =>
      simp only [SideEffectExecution.advanceGuarded] at hstep
      split at hstep
      case h_1 next hbegin =>
          have hnext : next = .plan ∨ next = .mark := by
            unfold beginPhase at hbegin
            split at hbegin
            · exact Or.inl (Option.some.inj hbegin).symm
            · split at hbegin
              · exact Or.inr (Option.some.inj hbegin).symm
              · cases hbegin
          have hw' := Option.some.inj hstep
          subst hw'
          refine StepSpec.setActivity h hsame ?_
          rcases hnext with rfl | rfl <;> trivial
      case h_2 =>
          have hw' := Option.some.inj hstep
          subst hw'
          exact StepSpec.stop h
  | plan =>
      have hw' := Option.some.inj hstep
      subst hw'
      exact StepSpec.commit h hsame fun store hstore => ⟨plan_rowsEvolve hstore, trivial⟩
  | mark =>
      have hw' := Option.some.inj hstep
      subst hw'
      refine StepSpec.commit h hsame ?_
      intro store hstore
      obtain ⟨commit, hmark⟩ := StoreResult.map_fst_ok hstore
      obtain ⟨row, hrow, henters, hcommit⟩ := markOutboxInFlight_ok hmark
      obtain ⟨⟨added, hcommitted⟩, -, -⟩ := commitOutbox_ok hcommit
      have houtbox : store.outbox = w.store.outbox.insert (effect.commandId site)
          (inFlightRow row (some token)) := by rw [hcommitted]
      constructor
      · exact RowsEvolve.insert hrow houtbox
          (.begun hactivity rfl (entersFlight_iff.mp henters))
      · exact ⟨inFlightRow row (some token), by simp [houtbox], rfl, rfl⟩
  | call =>
      have hflight : InFlightUnder w (effect.commandId site) token := by
        have hold := h.consistent p
        rwa [hactivity] at hold
      simp only [SideEffectExecution.advanceGuarded] at hstep
      have hcall : ∀ url w₁, performCall site w p effect url = some w₁ →
          Invariant site w₁ ∧ w₁.store.outbox = w.store.outbox ∧ w₁.activity = w.activity := by
        intro url w₁ hperform
        unfold performCall postReply at hperform
        split at hperform
        · dsimp only at hperform
          split at hperform
          · have hw₁ := Option.some.inj hperform
            subst hw₁
            exact ⟨h.congr rfl rfl rfl rfl, rfl, rfl⟩
          · cases hperform
        · have hw₁ := Option.some.inj hperform
          subst hw₁
          exact ⟨h, rfl, rfl⟩
      split at hstep
      case h_1 error hend =>
          have hw' := Option.some.inj hstep
          subst hw'
          exact StepSpec.setActivity h hsame ⟨hflight, Or.inl rfl⟩
      case h_2 url hend =>
          obtain ⟨w₁, hperform, hw'⟩ := Option.bind_eq_some_iff.mp hstep
          obtain ⟨hinv, hstore, hactivities⟩ := hcall url w₁ hperform
          have hw' := Option.some.inj hw'
          subst hw'
          have hflight₁ : InFlightUnder w₁ (effect.commandId site) token := by
            unfold InFlightUnder
            rwa [hstore]
          have hspec : ∀ reference, StepSpec site w₁ p
              (w₁.setActivity p (.finishing effect (some token) (.succeeded reference) .read)) :=
            fun _ => StepSpec.setActivity hinv (by rw [hactivities]; exact hsame)
              ⟨hflight₁, Or.inl rfl⟩
          refine ⟨(hspec _).invariant, .refl p _ hstore, ?_⟩
          rw [← hactivities]
          exact (hspec _).others
      case h_3 url hend =>
          obtain ⟨w₁, hperform, hw'⟩ := Option.bind_eq_some_iff.mp hstep
          obtain ⟨hinv, hstore, hactivities⟩ := hcall url w₁ hperform
          have hw' := Option.some.inj hw'
          subst hw'
          have hspec := StepSpec.stop (p := p) hinv
          refine ⟨hspec.invariant, .refl p _ hstore, ?_⟩
          rw [← hactivities]
          exact hspec.others

theorem StepSpec.advanceFinishing (h : Invariant site w) {effect : SideEffect}
    {owner : Option String} {ended : AttemptEnd} {phase : FinishPhase}
    (hactivity : w.activity p = .finishing effect owner ended phase) :
    StepSpec site w p (advanceFinishing site w p effect owner ended phase) := by
  have hold := h.consistent p
  rw [hactivity] at hold
  have hguard : ∀ token, owner = some token → (w.activity p).guard = some (effect, token) := by
    intro token howner
    rw [hactivity, howner]
    rfl
  -- Under an owner the row is in flight, otherwise it is settled: it is never planned anew.
  have hrow : ∃ row, w.store.outbox[effect.commandId site]? = some row ∧ Settled row := by
    cases owner with
    | none => exact hold.1
    | some token =>
        obtain ⟨row, hrow, hstatus, htoken⟩ := hold.1
        exact ⟨row, hrow, by simp [Settled, hstatus, htoken]⟩
  have hphase : phase = .read ∨ phase = .record := by
    cases owner with
    | none => exact hold.2
    | some token => exact hold.2
  obtain ⟨row, hrow, hsettled⟩ := hrow
  rcases hphase with rfl | rfl
  · have hnext : finishPhase site w effect = .record := by
      unfold finishPhase
      rw [hrow]
      exact if_neg hsettled.1
    refine StepSpec.setActivity h ?_ ?_
    · intro other token hsome
      rw [hactivity]
      cases owner with
      | none => cases hsome
      | some token' => exact hsome
    · rw [hnext]
      cases owner with
      | none => exact ⟨hold.1, Or.inr rfl⟩
      | some token => exact ⟨hold.1, Or.inr rfl⟩
  · refine StepSpec.commitAndStop h ?_
    intro store hstore
    obtain ⟨commit, hrecord⟩ := StoreResult.map_fst_ok hstore
    obtain ⟨hreference, row', hrow', haccepts, hcommit⟩ := recordOutboxResult_ok hrecord
    rw [hrow] at hrow'
    have hsame := Option.some.inj hrow'
    subst hsame
    obtain ⟨⟨added, hcommitted⟩, hrecorded, -⟩ := commitOutbox_ok hcommit
    have hrecorded := hrecorded _ List.mem_cons_self
    have houtbox : store.outbox = w.store.outbox.insert (effect.commandId site)
        (resultRow row ended.result) := by rw [hcommitted]
    refine RowsEvolve.insert hrow houtbox ?_
    cases owner with
    | none =>
        exact .reconciled hactivity rfl (unknown_of_acceptsResult hsettled haccepts)
          (AttemptEnd.hasReference row hreference) hrecorded
    | some token =>
        obtain ⟨row'', hrow'', hstatus, htoken⟩ := hold.1
        rw [hrow] at hrow''
        have hsame := Option.some.inj hrow''
        subst hsame
        exact .finished hactivity rfl hstatus htoken
          (AttemptEnd.hasReference row hreference) hrecorded

theorem Dead.setActivity {activity : Activity} (hguard : activity.guard = none)
    {command : InFlightCommand} (h : Dead site w command) :
    Dead site (w.setActivity p activity) command := by
  have hmoves : Moves w { w.setActivity p activity with store := w.store } p := by
    refine Moves.setActivity w.store fun effect token hsome => ?_
    rw [hguard] at hsome
    cases hsome
  exact hmoves.dead h

/-- The tokens of the rows in flight were handed out. -/
theorem StepSpec.readInFlight (h : Invariant site w) (resume : Option SideEffect) :
    StepSpec site w p (w.setActivity p (.probing (inFlightCommands w.store) [] resume)) := by
  refine StepSpec.quiet h rfl ⟨?_, fun command hmem => absurd hmem List.not_mem_nil⟩
  intro command hmem token htoken
  obtain ⟨row, hrow, -, howner⟩ := mem_inFlightCommands hmem
  exact h.tokenIssued command.1 row token hrow (howner.trans htoken)

/-- A command whose lock is free when it is probed is dead: nobody guards it under its token. -/
theorem StepSpec.probing (h : Invariant site w) {choice : Choice} {command : InFlightCommand}
    {remaining dead : List InFlightCommand} {resume : Option SideEffect}
    (hactivity : w.activity p = .probing (command :: remaining) dead resume) :
    StepSpec site w p (w.setActivity p (.probing remaining
      (if w.lockHeld command.1 choice then dead else dead ++ [command]) resume)) := by
  have hold := h.consistent p
  rw [hactivity] at hold
  refine StepSpec.quiet h rfl ⟨?_, ?_⟩
  · intro other hmem token htoken
    exact hold.1 other (List.mem_cons_of_mem _ hmem) token htoken
  · intro other hmem
    refine Dead.setActivity rfl ?_
    split at hmem
    case isTrue => exact hold.2 other hmem
    case isFalse hheld =>
        rcases List.mem_append.mp hmem with hmem | hmem
        · exact hold.2 other hmem
        · have hsame := List.mem_singleton.mp hmem
          subst hsame
          intro token htoken
          exact ⟨hold.1 other List.mem_cons_self token htoken, fun q =>
            not_guards_of_unlocked h (unlocked_of_not_lockHeld hheld) q token⟩

theorem StepSpec.demoting (h : Invariant site w) {dead : List InFlightCommand}
    {resume : Option SideEffect} (hactivity : w.activity p = .demoting dead resume) :
    StepSpec site w p
      (w.commit p (afterRecovery resume) ((demoteDead w.store dead).map (·.1))) := by
  have hold := h.consistent p
  rw [hactivity] at hold
  refine StepSpec.commit h ?_ ?_
  · intro effect token hsome
    cases resume <;> cases hsome
  · intro store hstore
    exact ⟨demoteDead_rowsEvolve hold hstore, by cases resume <;> trivial⟩

/-- The attempt that was found without an effect is recorded. -/
theorem StepSpec.reconciling (h : Invariant site w) {effect : SideEffect} {read : OutboxRow}
    (hactivity : w.activity p = .reconciling effect read) :
    StepSpec site w p (w.commit p (.acquire effect)
      ((recordOutboxResult w.store (effect.commandId site)
        { succeeded := false, errorType := some "reconciled_no_effect" } [] none).map (·.1))) := by
  have hold := h.consistent p
  rw [hactivity] at hold
  refine StepSpec.commit h (fun effect' token hsome => by cases hsome) ?_
  intro store hstore
  obtain ⟨commit, hrecord⟩ := StoreResult.map_fst_ok hstore
  obtain ⟨-, row', hrow', haccepts, hcommit⟩ := recordOutboxResult_ok hrecord
  obtain ⟨old, hrow, hsettled⟩ := hold
  rw [hrow] at hrow'
  have hsame := Option.some.inj hrow'
  subst hsame
  obtain ⟨⟨added, hcommitted⟩, -, -⟩ := commitOutbox_ok hcommit
  exact ⟨RowsEvolve.insert hrow (by rw [hcommitted])
    (.reconciledNoEffect hactivity rfl (unknown_of_acceptsResult hsettled haccepts)), trivial⟩

/-- One step of a process keeps the invariant and changes rows as permitted. -/
theorem StepSpec.advance (h : Invariant site w) {choice : Choice} {w' : World P}
    (hstep : advance site w p choice = some w') : StepSpec site w p w' := by
  have hold := h.consistent p
  unfold SideEffectExecution.advance at hstep
  split at hstep
  case h_1 => cases hstep
  case h_2 resume hactivity =>
      rw [← Option.some.inj hstep]
      exact StepSpec.readInFlight h resume
  case h_3 resume hactivity =>
      rw [← Option.some.inj hstep]
      cases resume with
      | none => exact StepSpec.quiet h rfl trivial
      | some effect => exact StepSpec.quiet h rfl trivial
  case h_4 dead resume hactivity =>
      rw [← Option.some.inj hstep]
      rw [hactivity] at hold
      exact StepSpec.quiet h rfl fun command hmem => Dead.setActivity rfl (hold.2 command hmem)
  case h_5 command remaining dead resume hactivity =>
      rw [← Option.some.inj hstep]
      exact StepSpec.probing h hactivity
  case h_6 dead resume hactivity =>
      rw [← Option.some.inj hstep]
      exact StepSpec.demoting h hactivity
  case h_7 effect recovered hactivity =>
      rw [← Option.some.inj hstep]
      exact StepSpec.stateRead h effect recovered
  case h_8 effect hactivity =>
      split at hstep
      · rw [← Option.some.inj hstep]
        exact StepSpec.quiet h rfl trivial
      · rw [← Option.some.inj hstep]
        exact StepSpec.quiet h rfl trivial
  case h_9 effect hactivity =>
      split at hstep
      · rw [← Option.some.inj hstep]
        exact StepSpec.stop h
      · rw [← Option.some.inj hstep]
        exact StepSpec.quiet h rfl trivial
  case h_10 effect row hactivity =>
      rw [hactivity] at hold
      split at hstep
      · rw [← Option.some.inj hstep]
        exact StepSpec.quiet h rfl hold
      · split at hstep
        · rw [← Option.some.inj hstep]
          exact StepSpec.quiet h rfl ⟨hold, Or.inl rfl⟩
        · rw [← Option.some.inj hstep]
          exact StepSpec.quiet h rfl hold
  case h_11 effect row hactivity =>
      rw [hactivity] at hold
      dsimp only at hstep
      split at hstep
      · rw [← Option.some.inj hstep]
        exact StepSpec.stop h
      · rw [← Option.some.inj hstep]
        exact StepSpec.quiet h rfl hold
  case h_12 effect row hactivity =>
      rw [← Option.some.inj hstep]
      exact StepSpec.reconciling h hactivity
  case h_13 effect hactivity =>
      split at hstep
      · rw [← Option.some.inj hstep]
        exact StepSpec.stop h
      · rename_i hheld
        split at hstep
        · cases hstep
        · rename_i hfresh
          rw [← Option.some.inj hstep]
          exact StepSpec.acquire h (by rw [hactivity]; rfl) (unlocked_of_not_lockHeld hheld)
            hfresh
  case h_14 effect token phase hactivity => exact StepSpec.advanceGuarded h hactivity hstep
  case h_15 effect owner ended phase hactivity =>
      rw [← Option.some.inj hstep]
      exact StepSpec.advanceFinishing h hactivity

/-- A step of a process changes rows as permitted, any other step changes none. -/
theorem Invariant.step (h : Invariant site w) {label : Label P} {w' : World P}
    (hstep : step site w label = some w') :
    Invariant site w' ∧
      ((∃ p, label.process = some p ∧ RowsEvolve site w p w'.store) ∨
        w'.store.outbox = w.store.outbox) := by
  have hquiet : ∀ p (activity : Activity), activity.guard = none →
      Consistent site (w.setActivity p activity) activity →
      StepSpec site w p (w.setActivity p activity) := by
    intro p activity hactivity hconsistent
    refine StepSpec.setActivity h ?_ hconsistent
    intro effect' token hsome
    rw [hactivity] at hsome
    cases hsome
  cases label with
  | recover p =>
      simp only [SideEffectExecution.step] at hstep
      split at hstep
      · rw [← Option.some.inj hstep]
        exact ⟨(hquiet p (.readInFlight none) rfl trivial).1, Or.inr rfl⟩
      · cases hstep
  | publish p effect =>
      simp only [SideEffectExecution.step] at hstep
      split at hstep
      · rw [← Option.some.inj hstep]
        exact ⟨(hquiet p (.readState effect false) rfl trivial).1, Or.inr rfl⟩
      · cases hstep
  | advance p choice =>
      have hspec := StepSpec.advance h hstep
      exact ⟨hspec.invariant, Or.inl ⟨p, rfl, hspec.rows⟩⟩
  | stop p =>
      rw [← Option.some.inj hstep]
      exact ⟨(StepSpec.stop h).1, Or.inr rfl⟩
  | write write =>
      simp only [SideEffectExecution.step] at hstep
      split at hstep
      case h_1 store hstore =>
          rw [← Option.some.inj hstep]
          have houtbox := SessionWrite.apply_outbox hstore
          exact ⟨h.congr houtbox rfl rfl rfl, Or.inr houtbox⟩
      case h_2 => cases hstep
  | comment thread comment =>
      rw [← Option.some.inj hstep]
      exact ⟨h.congr rfl rfl rfl rfl, Or.inr rfl⟩
  | removeComment thread index =>
      rw [← Option.some.inj hstep]
      exact ⟨h.congr rfl rfl rfl rfl, Or.inr rfl⟩

theorem Invariant.of_reachable (h : (executions site).Reachable w) : Invariant site w :=
  TransitionSystem.Reachable.invariant (Invariant site) (fun _ hinit => Initial.invariant hinit)
    (fun _ _ _ hinv hstep => (hinv.step hstep).1) h

/-- What one step may do to the outbox. -/
structure OutboxLaw (site : Site P) (w : World P) (label : Label P) (w' : World P) : Prop where
  /-- A row stays, and changes only as permitted to the process that steps. -/
  changed : ∀ (commandId : String) row, w.store.outbox[commandId]? = some row →
    ∃ row', w'.store.outbox[commandId]? = some row' ∧
      (row' = row ∨ ∃ p, label.process = some p ∧ RowChange site w p w'.store commandId row row')
  /-- A new row is a planned one. -/
  planned : ∀ (commandId : String) row', w.store.outbox[commandId]? = none →
    w'.store.outbox[commandId]? = some row' → row'.status = .planned
  absorbing : ∀ (commandId : String) row, w.store.outbox[commandId]? = some row →
    row.status = .succeeded → w'.store.outbox[commandId]? = some row
  reference : ∀ (commandId : String) row, w'.store.outbox[commandId]? = some row →
    HasReference row
  /-- A row that becomes succeeded has its evidence in the same commit. -/
  recorded : ∀ (commandId : String) row row', w.store.outbox[commandId]? = some row →
    w'.store.outbox[commandId]? = some row' → row.status ≠ .succeeded →
    row'.status = .succeeded → ∃ (effect : SideEffect) (url : String),
      row'.externalResultReference = some url ∧
      Recorded w.store w'.store (effect.record site .succeeded (some url) none)
  /-- A live executor's row in flight is touched by nobody else. -/
  live : ∀ p (commandId token : String) row, Guards site w p commandId token →
    w.store.outbox[commandId]? = some row → row.status = .inFlight →
    row.ownerToken = some token → label.process ≠ some p →
    w'.store.outbox[commandId]? = some row

/-- Every step of every run keeps to the law of the outbox. -/
theorem outbox_law (site : Site P) {w w' : World P} {label : Label P}
    (hreach : (executions site).Reachable w) (hstep : (executions site).step w label w') :
    OutboxLaw site w label w' := by
  have hinv := Invariant.of_reachable hreach
  obtain ⟨hinv', hrows⟩ := hinv.step hstep
  have hchanged : ∀ (commandId : String) row, w.store.outbox[commandId]? = some row →
      ∃ row', w'.store.outbox[commandId]? = some row' ∧ (row' = row ∨
        ∃ p, label.process = some p ∧ RowChange site w p w'.store commandId row row') := by
    intro commandId row hrow
    rcases hrows with ⟨p, hp, hevolve⟩ | hsame
    · obtain ⟨row', hrow', hkept⟩ := hevolve.kept commandId row hrow
      exact ⟨row', hrow', hkept.imp id fun hchange => ⟨p, hp, hchange⟩⟩
    · exact ⟨row, by rw [hsame, hrow], Or.inl rfl⟩
  refine ⟨hchanged, ?_, ?_, hinv'.reference, ?_, ?_⟩
  · intro commandId row' hnone hsome
    rcases hrows with ⟨p, -, hevolve⟩ | hsame
    · obtain ⟨effect, session, revision, -, rfl⟩ := hevolve.added commandId row' hnone hsome
      rfl
    · rw [hsame, hnone] at hsome
      cases hsome
  · intro commandId row hrow hsucceeded
    obtain ⟨row', hrow', rfl | ⟨p, -, hchange⟩⟩ := hchanged commandId row hrow
    · exact hrow'
    · exact absurd hsucceeded hchange.not_succeeded
  · intro commandId row row' hrow hrow' hbefore hafter
    obtain ⟨new, hnew, hkept⟩ := hchanged commandId row hrow
    rw [hrow'] at hnew
    have hnew := Option.some.inj hnew
    subst hnew
    rcases hkept with rfl | ⟨p, -, hchange⟩
    · exact absurd hafter hbefore
    · exact hchange.recorded hafter
  · intro p commandId token row hguards hrow hstatus htoken hother
    obtain ⟨row', hrow', rfl | ⟨q, hq, hchange⟩⟩ := hchanged commandId row hrow
    · exact hrow'
    · have hsame := hchange.of_guards hinv hstatus htoken hguards
      exact absurd (hsame ▸ hq) hother

end Steps

def twoPublishers : Site Bool where
  sessionId := "session"
  threadId := fun _ => "thread"
  login := fun _ => "publisher"

/-- A session without side effects, and a thread with its reviewer's comment. -/
def reviewedThread : World Bool where
  store :=
    { latestRevision := 1
      sessionRevision := 1
      root := Dict.ofFields [("session_id", .str "session")]
      items := ∅
      leases := ∅
      leaseEvents := []
      evidence := []
      outbox := ∅ }
  locks := fun _ => none
  activity := fun _ => .idle
  issued := []
  threads := fun _ => [⟨"reviewer", false, "https://github.test/comment"⟩]
  replies := []

def firstReply : SideEffect where
  itemId := "item"
  effectType := .githubReply
  leaseId := none
  agentId := "agent"
  timestamp := 0

theorem reviewedThread_initial : Initial reviewedThread where
  idle _ := rfl
  unlocked _ := rfl
  tokenIssued commandId row token hrow := by simp [reviewedThread] at hrow
  reference commandId row hrow := by simp [reviewedThread] at hrow

/-- One publisher's way up to the commit that takes its command in flight. -/
def beginReply (publisher : Bool) (token : String) : List (Label Bool) :=
  [.publish publisher firstReply, .advance publisher {}, .advance publisher { token := token },
    .advance publisher {}, .advance publisher {}]

theorem outbox_law_beginReply : ∃ w w',
    TransitionSystem.run (step twoPublishers) reviewedThread (beginReply false "first") = some w ∧
    step twoPublishers w (.advance false {}) = some w' ∧
    OutboxLaw twoPublishers w (.advance false {}) w' := by
  have hbegins : ((TransitionSystem.run (step twoPublishers) reviewedThread
      (beginReply false "first")).bind
        fun w => step twoPublishers w (.advance false {})).isSome = true := by
    decide +kernel
  obtain ⟨w', hw'⟩ := Option.isSome_iff_exists.mp hbegins
  obtain ⟨w, hw, hstep⟩ := Option.bind_eq_some_iff.mp hw'
  have hreach : (executions twoPublishers).Reachable w :=
    TransitionSystem.reachable_of_run _ (.start reviewedThread_initial) hw
  exact ⟨w, w', hw, hstep, outbox_law twoPublishers hreach hstep⟩

end GhAddressCr.SideEffectExecution
