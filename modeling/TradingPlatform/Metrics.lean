import Mathlib.Data.List.Basic

set_option autoImplicit false

namespace TradingPlatform

inductive MetricCounter where
  | marketDataReceived
  | signalsGenerated
  | ordersSent
  | ordersRejected
  | acksReceived
  | fillsReceived
  | queueDrops
  | heartbeatMisses
  | gatewayDisconnects
  | journalWrites
  | replayEventsWritten
  | replayEventsRead
  deriving DecidableEq, Repr

/-- The position of a counter in the registry's array. -/
def MetricCounter.index : MetricCounter → Fin 12
  | .marketDataReceived => 0
  | .signalsGenerated => 1
  | .ordersSent => 2
  | .ordersRejected => 3
  | .acksReceived => 4
  | .fillsReceived => 5
  | .queueDrops => 6
  | .heartbeatMisses => 7
  | .gatewayDisconnects => 8
  | .journalWrites => 9
  | .replayEventsWritten => 10
  | .replayEventsRead => 11

/-- The counters of the registry; they wrap. -/
structure MetricsRegistry where
  counters : Vector UInt64 12 := Vector.replicate 12 0
  deriving DecidableEq, Repr

namespace MetricsRegistry

def counter (registry : MetricsRegistry) (counter : MetricCounter) : UInt64 :=
  registry.counters[counter.index]

/-- `metric_inc` with its default value. -/
def increment (registry : MetricsRegistry) (counter : MetricCounter) : MetricsRegistry :=
  { counters := registry.counters.set counter.index (registry.counter counter + 1) }

/-- The increment a writer makes once its record is complete. -/
def incrementIf (registry : MetricsRegistry) (complete : Bool) (counter : MetricCounter) :
    MetricsRegistry :=
  if complete then registry.increment counter else registry

end MetricsRegistry
end TradingPlatform
