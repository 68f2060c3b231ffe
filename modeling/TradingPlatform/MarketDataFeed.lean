import TradingPlatform.LiveConnectors
import TradingPlatform.MarketDataNode

set_option autoImplicit false

/- The market data node behind a live connector: from the frames of the venue to
the bytes of the replay file. -/
namespace TradingPlatform

namespace MarketDataNode

/-- The callback, with the number of updates it has been called for. Each call has
its own surroundings. -/
def callback (surroundings : Nat → NodeInput) (state : MarketDataNode × Nat)
    (md : NormalizedMarketData) : MarketDataNode × Nat :=
  let (node, calls) := state
  let input := { surroundings calls with received := some (.marketData md.update) }
  ((((node.step input).1.step input).1.step input).1, calls + 1)

/-- The node after its connector has returned. -/
def run (connector : LiveConnector) (client : WssClient) (surroundings : Nat → NodeInput)
    (opens : Bool) : MarketDataNode :=
  (connector.run client 1 0 (callback surroundings) (start [] opens, 0)).1.1

/-- What an event of the file says about the update that it was written for. -/
def event (surroundings : Nat → NodeInput) (md : NormalizedMarketData) (calls : Nat) :
    ReplayEvent :=
  { nodeRole := .marketData : ReplayLog }.eventFor (.marketData md.update) (calls + 1)
    (surroundings calls).replay.now

section Run

variable (surroundings : Nat → NodeInput)

/-- Between two calls: the file has one event for each update so far, in their
order, numbered from one, and the book is theirs. -/
structure Recorded (updates : List NormalizedMarketData) (state : MarketDataNode × Nat) :
    Prop where
  calls : state.2 = updates.length
  idle : state.1.phase = .idle
  sequence : state.1.outboundSeq = updates.length
  role : state.1.replayWriter.nodeRole = .marketData
  opened : state.1.replayWriter.opened = true
  intact : state.1.replayWriter.Intact
  events : state.1.replayWriter.events =
    updates.zipIdx.map fun (md, calls) => event surroundings md calls
  book : state.1.book = TopOfBook.replay (updates.map NormalizedMarketData.update)

theorem Recorded.callback {updates : List NormalizedMarketData} {state : MarketDataNode × Nat}
    (recorded : Recorded surroundings updates state) (md : NormalizedMarketData)
    (writes : ∀ calls, (surroundings calls).replay.writes = true) :
    Recorded surroundings (updates ++ [md])
      (MarketDataNode.callback surroundings state md) := by
  obtain ⟨node, calls⟩ := state
  obtain ⟨rfl, idle, sequence, role, opened, intact, events, book⟩ := recorded
  dsimp only at idle sequence role opened intact events book
  have appended := ReplayLog.append_writes node.replayWriter (surroundings updates.length).replay
    (.marketData md.update) (updates.length + 1) opened (writes updates.length)
  constructor
  · simp [MarketDataNode.callback]
  · simp [MarketDataNode.callback, step, idle]
  · simp [MarketDataNode.callback, step, idle, sequence]
  · simp [MarketDataNode.callback, step, idle, ReplayLog.record, sequence, appended, role]
  · simp [MarketDataNode.callback, step, idle, ReplayLog.record, sequence, appended, opened]
  · have whole := node.replayWriter.put_intact (node.replayWriter.eventFor
      (.marketData md.update) (updates.length + 1) (surroundings updates.length).replay.now) intact
    simpa [MarketDataNode.callback, step, idle, ReplayLog.record, sequence, appended] using whole
  · simp [MarketDataNode.callback, step, idle, ReplayLog.record, sequence, appended, events,
      List.zipIdx_append, event, ReplayLog.eventFor, role]
  · simp [MarketDataNode.callback, step, idle, book, TopOfBook.replay_concat]

theorem foldl_recorded (later earlier : List NormalizedMarketData) (state : MarketDataNode × Nat)
    (writes : ∀ calls, (surroundings calls).replay.writes = true)
    (recorded : Recorded surroundings earlier state) :
    Recorded surroundings (earlier ++ later)
      (later.foldl (MarketDataNode.callback surroundings) state) := by
  induction later generalizing earlier state with
  | nil => simpa using recorded
  | cons md later ih =>
      have next := ih _ _ (recorded.callback surroundings md writes)
      rwa [List.append_assoc, List.singleton_append] at next

/-- Whatever the venue sends and whichever sends to the strategy fail, as long as
the writes to the replay file succeed: reading the bytes of the file back gives one
event for every frame that normalizes, in the order of the frames and numbered from
one, and the book is that of their updates. -/
theorem run_recorded (connector : LiveConnector) (client : WssClient)
    (writes : ∀ calls, (surroundings calls).replay.writes = true) :
    let node := run connector client surroundings true
    let updates := connector.handed client 1 0
    Replay.readAll node.replayWriter.file =
        (updates.zipIdx.map fun (md, calls) => (event surroundings md calls).raw) ∧
      node.book = TopOfBook.replay (updates.map NormalizedMarketData.update) := by
  intro node updates
  have begun : Recorded surroundings [] (start [] true, 0) := ⟨rfl, rfl, rfl, rfl, rfl, rfl, rfl, rfl⟩
  have recorded := foldl_recorded surroundings updates [] _ writes begun
  have ran : node = (updates.foldl (MarketDataNode.callback surroundings) (start [] true, 0)).1 := by
    show (connector.run client 1 0 (MarketDataNode.callback surroundings) (start [] true, 0)).1.1 = _
    rw [connector.run_handed]
  rw [List.nil_append] at recorded
  have sound : node.replayWriter.Sound := by
    intro stored member
    rw [ran, recorded.events] at member
    obtain ⟨⟨md, calls⟩, -, rfl⟩ := List.mem_map.mp member
    exact ReplayLog.eventFor_sound _ _ _ _
  constructor
  · have intact : node.replayWriter.Intact := ran ▸ recorded.intact
    rw [ReplayLog.readAll_file _ intact, ReplayLog.read_sound _ sound, ran, recorded.events,
      List.map_map]
    rfl
  · rw [ran]
    exact recorded.book

end Run

/-- Both tickers are recorded, with their own prices, although no send gets through. -/
theorem run_recorded_twoTickers :
    let connector := binanceLiveBookTicker (Decimal.ascii "abcusdt")
    let surroundings : Nat → NodeInput := fun _ => { sends := false }
    let updates := connector.handed twoTickers 1 0
    updates.map (fun md => (md.update.bidPx, md.update.askPx)) = [(10000, 10005), (10002, 10004)] ∧
      Replay.readAll (run connector twoTickers surroundings true).replayWriter.file =
        updates.zipIdx.map fun (md, calls) => (event surroundings md calls).raw := by
  intro connector surroundings updates
  exact ⟨by decide +kernel,
    (run_recorded surroundings connector twoTickers fun _ => rfl).1⟩

end MarketDataNode
end TradingPlatform
