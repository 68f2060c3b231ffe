import TradingPlatform.Connection
import TradingPlatform.OrderBook

set_option autoImplicit false

/- The market data node: every update of the venue is recorded, then sent to the
strategy node. -/
namespace TradingPlatform

/-- Where the node is in its callback. -/
inductive MarketDataNodeAt where
  | idle
  | recording (update : MarketDataUpdate)
  | sending (update : MarketDataUpdate)
  deriving DecidableEq, Repr

structure MarketDataNode where
  book : TopOfBook := {}
  outboundSeq : Sequence := 0
  replayWriter : ReplayLog
  metrics : MetricsRegistry := {}
  phase : MarketDataNodeAt := .idle

namespace MarketDataNode

def start (file : List ReplayEvent) (opens : Bool) : MarketDataNode where
  replayWriter := ReplayLog.open { nodeRole := .marketData, events := file } opens

/-- One effect of the callback; the second component is what it sends. -/
def step (node : MarketDataNode) (input : NodeInput) : MarketDataNode × List Envelope :=
  match node.phase with
  | .idle =>
      match input.received with
      | some (.marketData update) =>
          ({ node with
              book := node.book.apply update
              metrics := node.metrics.increment .marketDataReceived
              phase := .recording update }, [])
      | _ => (node, [])
  | .recording update =>
      let outboundSeq := node.outboundSeq + 1
      let (replayWriter, metrics) :=
        node.replayWriter.record node.metrics input.replay (.marketData update) outboundSeq
      ({ node with outboundSeq, replayWriter, metrics, phase := .sending update }, [])
  | .sending update =>
      -- a failed send does not end the feed
      let metrics :=
        if input.sends then node.metrics else node.metrics.increment .queueDrops
      ({ node with metrics, phase := .idle }, [.marketData update])

/-! ### What the node has recorded -/

/-- The updates in the replay file. -/
def recorded (node : MarketDataNode) : List MarketDataUpdate :=
  node.replayWriter.envelopes.filterMap Envelope.marketData?

/-- The update that is recorded and about to be sent. -/
def unsent (node : MarketDataNode) : List MarketDataUpdate :=
  match node.phase with
  | .sending update => [update]
  | _ => []

section Step

variable (node : MarketDataNode) (input : NodeInput)

theorem step_replay (opened : node.replayWriter.opened = true)
    (sound : node.replayWriter.Sound) :
    (node.step input).1.replayWriter.opened = true ∧ (node.step input).1.replayWriter.Sound := by
  unfold step
  cases node.phase with
  | idle =>
      cases input.received with
      | none => exact ⟨opened, sound⟩
      | some envelope => cases envelope <;> exact ⟨opened, sound⟩
  | recording update =>
      exact ⟨by simp [opened], node.replayWriter.record_sound node.metrics input.replay
        (.marketData update) (node.outboundSeq + 1) sound⟩
  | sending update => exact ⟨opened, sound⟩

/-- What is recorded is sent next, or never. -/
theorem carries_step (consumed : List MarketDataUpdate) (connection : Connection)
    (opened : node.replayWriter.opened = true) (writes : input.replay.writes = true)
    (intact : input.sends = true → connection.broken = false)
    (carries : connection.Carries Envelope.marketData? node.recorded node.unsent consumed) :
    (connection.send input.sends (node.step input).2).Carries Envelope.marketData?
      (node.step input).1.recorded (node.step input).1.unsent consumed := by
  unfold step
  cases phase : node.phase with
  | idle =>
      rw [unsent, phase] at carries
      cases input.received with
      | none => simpa [recorded, unsent, phase] using carries
      | some envelope => cases envelope <;> simpa [recorded, unsent, phase] using carries
  | recording update =>
      rw [unsent, phase] at carries
      simp only [recorded, unsent, ReplayLog.record_envelopes _ _ _ _ _ opened writes,
        List.filterMap_append]
      exact carries.record update
  | sending update =>
      rw [unsent, phase] at carries
      exact carries.send input.sends intact (.marketData update) rfl

end Step

end MarketDataNode
end TradingPlatform
