import TradingPlatform.LiveMultiVenueRouter

set_option autoImplicit false

/- How many routes a run emits under the limit of the kill switch. -/
namespace TradingPlatform
namespace LiveRouter

open Router (MultiVenueRouter)

def fresh (limits : KillSwitchLimits) : SharedState := { killSwitch := { limits := limits } }

/-- The state after a run of calls on a fresh state. -/
def after (limits : KillSwitchLimits) (calls : List Call) : SharedState :=
  Transducer.after processUpdate (fresh limits) calls

/-- The route signals of a run, as they are handed to both files. -/
def routes (limits : KillSwitchLimits) (calls : List Call) : List Signal :=
  (Transducer.emitted processUpdate (fresh limits) calls).filterMap Envelope.signal?

/-- The valid updates that arrive before a call sees the halt file. -/
def validBeforeHalt (calls : List Call) : List NormalizedMarketData :=
  ((calls.takeWhile fun call => !call.haltFile).map Call.md).filter MultiVenueRouter.Accepted

theorem validBeforeHalt_concat (calls : List Call) (call : Call) :
    validBeforeHalt (calls ++ [call]) =
      if (∀ earlier ∈ calls, earlier.haltFile = false) ∧ call.haltFile = false ∧
          MultiVenueRouter.Accepted call.md
      then validBeforeHalt calls ++ [call.md] else validBeforeHalt calls := by
  unfold validBeforeHalt
  by_cases running : ∀ earlier ∈ calls, earlier.haltFile = false
  · have passed : ∀ earlier ∈ calls, (!earlier.haltFile) = true := by simpa using running
    rw [List.takeWhile_append_of_pos passed, List.takeWhile_eq_self_iff.mpr passed]
    by_cases halted : call.haltFile = false
    · by_cases accepted : MultiVenueRouter.Accepted call.md
      · rw [if_pos ⟨running, halted, accepted⟩]
        simp [halted, accepted]
      · rw [if_neg (fun held => accepted held.2.2)]
        simp [halted, accepted]
    · rw [if_neg (fun held => halted held.2.1)]
      simp [halted]
  · have stops : (calls.takeWhile fun call => !call.haltFile).length ≠ calls.length := by
      intro whole
      apply running
      intro earlier member
      have all := List.takeWhile_eq_self_iff.mp
        ((List.takeWhile_prefix _).eq_of_length whole) earlier member
      simpa using all
    rw [List.takeWhile_append, if_neg stops, if_neg (fun held => running held.1)]

/-- What holds of a fresh state after every run: the router has heard some
history, the limits stand, and both counters count the routes. -/
structure Counts (limits : KillSwitchLimits) (state : SharedState) (emitted : Nat) : Prop where
  router : ∃ history, state.router = MultiVenueRouter.replay history
  limits : state.killSwitch.limits = limits
  counter : state.killSwitch.state.routesSeen = UInt64.ofNat emitted
  routesSeen : state.routesSeen = UInt64.ofNat emitted

theorem counter_succ (count : Nat) : UInt64.ofNat count + 1 = UInt64.ofNat (count + 1) := by
  apply UInt64.toNat_inj.mp
  simp

theorem counter_le (count : Nat) (limit : UInt64) (within : count ≤ limit.toNat) :
    UInt64.ofNat count ≤ limit := by
  have bound := limit.toNat_lt
  have same : (UInt64.ofNat count).toNat = count := 
    UInt64.toNat_ofNat_of_lt' (Nat.lt_of_le_of_lt within bound)
  rw [UInt64.le_iff_toNat_le, same]
  exact within

theorem taken_iff (state : SharedState) (call : Call) :
    Taken state call ↔ state.killSwitch.state.tradingEnabled = true ∧ call.haltFile = false ∧
      MultiVenueRouter.Accepted call.md := by
  have enabled := (state.killSwitch.tradingEnabled_eq call.haltFile call.halted).2
  rw [Taken, polled, enabled]
  simp [and_assoc]

theorem processUpdate_counts (limits : KillSwitchLimits) (state : SharedState) (call : Call)
    (emitted : Nat) (counts : Counts limits state emitted) :
    Counts limits (processUpdate state call).1
      (emitted + ((processUpdate state call).2.filterMap Envelope.signal?).length) := by
  obtain ⟨history, router⟩ := counts.router
  have polledLimits : (polled state call).limits = limits :=
    (KillSwitch.tradingEnabled_limits _ _ _).trans counts.limits
  have polledCounter : (polled state call).state.routesSeen = UInt64.ofNat emitted :=
    (KillSwitch.tradingEnabled_routesSeen _ _ _).trans counts.counter
  by_cases taken : Taken state call
  · obtain ⟨heard, killSwitch, routesSeen, buy, sell, outputs, -⟩ :=
      processUpdate_routes state call history router taken
    have two : ([.marketData call.md.update, .signal buy, .signal sell].filterMap
        Envelope.signal?).length = 2 := rfl
    rw [outputs, two]
    refine ⟨⟨_, heard⟩, ?_, ?_, ?_⟩
    · rw [killSwitch, KillSwitch.onRoute_limits, KillSwitch.onRoute_limits, polledLimits]
    · rw [killSwitch, KillSwitch.onRoute_routesSeen, KillSwitch.onRoute_routesSeen,
        polledCounter, counter_succ, counter_succ]
    · rw [routesSeen, counts.routesSeen, counter_succ, counter_succ]
  · obtain ⟨outputs, heard, killSwitch, routesSeen, -⟩ := processUpdate_silent state call taken
    rw [outputs, List.filterMap_nil, List.length_nil, Nat.add_zero]
    exact ⟨⟨history, heard.trans router⟩, killSwitch ▸ polledLimits, killSwitch ▸ polledCounter,
      routesSeen.trans counts.routesSeen⟩

theorem after_counts (limits : KillSwitchLimits) (calls : List Call) :
    Counts limits (after limits calls) (routes limits calls).length := by
  induction calls using List.reverseRecOn with
  | nil => exact ⟨⟨[], rfl⟩, rfl, rfl, rfl⟩
  | append_singleton calls call ih =>
      have next := processUpdate_counts limits _ call _ ih
      rw [after, routes, Transducer.after_concat, Transducer.emitted_concat,
        List.filterMap_append, List.length_append]
      exact next

theorem routes_concat (limits : KillSwitchLimits) (calls : List Call) (call : Call) :
    routes limits (calls ++ [call]) =
      routes limits calls ++
        (processUpdate (after limits calls) call).2.filterMap Envelope.signal? := by
  rw [routes, Transducer.emitted_concat, List.filterMap_append]
  rfl

theorem routes_silent (limits : KillSwitchLimits) (calls : List Call) (call : Call)
    (silent : ¬ Taken (after limits calls) call) :
    routes limits (calls ++ [call]) = routes limits calls := by
  rw [routes_concat, (processUpdate_silent _ call silent).1, List.filterMap_nil, List.append_nil]

theorem routes_taken (limits : KillSwitchLimits) (calls : List Call) (call : Call)
    (taken : Taken (after limits calls) call) :
    (routes limits (calls ++ [call])).length = (routes limits calls).length + 2 := by
  obtain ⟨history, router⟩ := (after_counts limits calls).router
  obtain ⟨-, -, -, buy, sell, outputs, -⟩ :=
    processUpdate_routes (after limits calls) call history router taken
  rw [routes_concat, outputs, List.length_append]
  rfl

/-- Trading goes on after a call that sees no halt file as long as the routes
stay within the limit. -/
theorem after_enabled (limits : KillSwitchLimits) (calls : List Call) (call : Call)
    (within : (routes limits (calls ++ [call])).length ≤ limits.maxRoutesPerRun.toNat) :
    (after limits (calls ++ [call])).killSwitch.state.tradingEnabled =
      ((after limits calls).killSwitch.state.tradingEnabled && !call.haltFile) := by
  have counts := after_counts limits calls
  have poll := ((after limits calls).killSwitch.tradingEnabled_eq call.haltFile call.halted).2
  rw [after, Transducer.after_concat, ← after]
  by_cases taken : Taken (after limits calls) call
  · rw [routes_taken limits calls call taken] at within
    obtain ⟨history, router⟩ := counts.router
    have killSwitch := (processUpdate_routes (after limits calls) call history router taken).2.1
    have polledLimits : (polled (after limits calls) call).limits = limits :=
      (KillSwitch.tradingEnabled_limits _ _ _).trans counts.limits
    have polledCounter : (polled (after limits calls) call).state.routesSeen =
        UInt64.ofNat (routes limits calls).length :=
      (KillSwitch.tradingEnabled_routesSeen _ _ _).trans counts.counter
    have first : UInt64.ofNat (routes limits calls).length + 1 ≤ limits.maxRoutesPerRun := by
      rw [counter_succ]
      exact counter_le _ _ (by omega)
    have second : UInt64.ofNat (routes limits calls).length + 1 + 1 ≤
        limits.maxRoutesPerRun := by
      rw [counter_succ, counter_succ]
      exact counter_le _ _ (by omega)
    rw [killSwitch, KillSwitch.onRoute_enabled, KillSwitch.onRoute_enabled,
      KillSwitch.onRoute_routesSeen, KillSwitch.onRoute_limits, polledLimits, polledCounter,
      decide_eq_true first, decide_eq_true second, Bool.and_true, Bool.and_true]
    exact poll
  · rw [(processUpdate_silent _ call taken).2.2.1]
    exact poll

/-- Up to the limit nothing but the halt file stops the routes: every valid
update before it has made two. -/
theorem routes_length (limits : KillSwitchLimits) (calls : List Call)
    (within : 2 * (validBeforeHalt calls).length ≤ limits.maxRoutesPerRun.toNat) :
    (routes limits calls).length = 2 * (validBeforeHalt calls).length ∧
      ((after limits calls).killSwitch.state.tradingEnabled = true ↔
        ∀ call ∈ calls, call.haltFile = false) := by
  induction calls using List.reverseRecOn with
  | nil => exact ⟨rfl, by simp [after, fresh]⟩
  | append_singleton calls call ih =>
      have valid := validBeforeHalt_concat calls call
      have shorter : (validBeforeHalt calls).length ≤ (validBeforeHalt (calls ++ [call])).length := by
        rw [valid]
        split
        · simp
        · exact Nat.le_refl _
      obtain ⟨length, enabled⟩ := ih (by omega)
      have total : (routes limits (calls ++ [call])).length =
          2 * (validBeforeHalt (calls ++ [call])).length := by
        have takes := taken_iff (after limits calls) call
        rw [enabled] at takes
        rw [valid]
        by_cases taken : Taken (after limits calls) call
        · rw [routes_taken limits calls call taken, if_pos (takes.mp taken), List.length_append,
            List.length_singleton]
          omega
        · rw [routes_silent limits calls call taken, if_neg (fun held => taken (takes.mpr held)),
            length]
      refine ⟨total, ?_⟩
      rw [after_enabled limits calls call (by omega), Bool.and_eq_true, enabled]
      simp [or_imp, forall_and]

theorem validBeforeHalt_mono (heard calls : List Call) (prior : heard <+: calls) :
    (validBeforeHalt heard).length ≤ (validBeforeHalt calls).length := by
  obtain ⟨rest, rfl⟩ := prior
  induction rest using List.reverseRecOn with
  | nil => rw [List.append_nil]
  | append_singleton rest call ih =>
      rw [← List.append_assoc, validBeforeHalt_concat]
      split
      · simp only [List.length_append, List.length_singleton]
        omega
      · exact ih

/-- A run stays within the limit, at every moment, exactly when the valid updates
before the halt file, with two routes each, do. -/
theorem routes_within_iff (limits : KillSwitchLimits) (calls : List Call) :
    (∀ heard, heard <+: calls →
        (after limits heard).routesSeen ≤ limits.maxRoutesPerRun ∧
          (routes limits heard).length ≤ limits.maxRoutesPerRun.toNat) ↔
      2 * (validBeforeHalt calls).length ≤ limits.maxRoutesPerRun.toNat := by
  constructor
  · intro stays
    induction calls using List.reverseRecOn with
    | nil => exact Nat.zero_le _
    | append_singleton calls call ih =>
        have sofar := ih (fun heard prior => stays heard (prior.trans (List.prefix_append _ _)))
        obtain ⟨length, enabled⟩ := routes_length limits calls sofar
        rw [validBeforeHalt_concat]
        split
        · rename_i valid
          have taken := (taken_iff (after limits calls) call).mpr
            ⟨enabled.mpr valid.1, valid.2⟩
          have final := (stays _ (List.prefix_refl _)).2
          rw [routes_taken limits calls call taken] at final
          rw [List.length_append, List.length_singleton]
          omega
        · exact sofar
  · intro within heard prior
    have fewer := validBeforeHalt_mono heard calls prior
    have length := (routes_length limits heard (by omega)).1
    have emitted : (routes limits heard).length ≤ limits.maxRoutesPerRun.toNat := by omega
    refine ⟨?_, emitted⟩
    rw [(after_counts limits heard).routesSeen]
    exact counter_le _ _ emitted

/-- A valid update of symbol 1, and the books traversed as they are stored. -/
def onlyCall : Call where
  md := { venue := .binance, update := { symbolId := 1, bidPx := 100, askPx := 101 } }
  order := .stored

/-- With a limit of one route, one update makes two. -/
theorem limit_exceeded :
    ¬ ∀ heard, heard <+: [onlyCall] →
      (after { maxRoutesPerRun := 1 } heard).routesSeen ≤ 1 ∧
        (routes { maxRoutesPerRun := 1 } heard).length ≤ (1 : UInt64).toNat := by
  intro stays
  have final := stays [onlyCall] (List.prefix_refl _)
  revert final
  decide

end LiveRouter
end TradingPlatform
