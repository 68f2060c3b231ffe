import Mathlib.Data.List.Induction
import Mathlib.Data.List.Pairwise
import Mathlib.Order.Bounds.Basic
import TradingPlatform.Library.Ring
import TradingPlatform.Metrics

set_option autoImplicit false

/- The latency samples of the metrics registry, and what a snapshot makes of them. -/
namespace TradingPlatform

def latencyCapacity : Nat := 1 <<< 16

structure MetricsSnapshot where
  counters : Vector UInt64 12
  latencyCount : Nat := 0
  latencyMinNs : UInt64 := 0
  latencyP50Ns : UInt64 := 0
  latencyP99Ns : UInt64 := 0
  latencyP999Ns : UInt64 := 0
  latencyMaxNs : UInt64 := 0
  deriving DecidableEq, Repr

/-- The registry with its ring of samples; the write index wraps. -/
structure LatencyRegistry extends MetricsRegistry where
  latencyWriteIndex : UInt64 := 0
  latencySamples : Nat → UInt64 := fun _ => 0

namespace LatencyRegistry

def observeLatencyNs (registry : LatencyRegistry) (latencyNs : UInt64) : LatencyRegistry :=
  let idx := registry.latencyWriteIndex.toNat % latencyCapacity
  { registry with
    latencyWriteIndex := registry.latencyWriteIndex + 1
    latencySamples := Function.update registry.latencySamples idx latencyNs }

/-- The sample at a fraction of the way, in thousandths. The products of doubles,
rounded down, are these quotients for every size up to the capacity. -/
def percentile (values : List UInt64) (permille : Nat) : UInt64 :=
  values.getD (permille * (values.length - 1) / 1000) 0

/-- The samples a snapshot looks at. -/
def values (registry : LatencyRegistry) : List UInt64 :=
  let count := min registry.latencyWriteIndex.toNat latencyCapacity
  ((List.range count).map registry.latencySamples).filter (0 < ·)

def snapshot (registry : LatencyRegistry) : MetricsSnapshot :=
  match registry.values.mergeSort (· ≤ ·) with
  | [] => { counters := registry.counters }
  | least :: rest => {
      counters := registry.counters
      latencyCount := (least :: rest).length
      latencyMinNs := least
      latencyP50Ns := percentile (least :: rest) 500
      latencyP99Ns := percentile (least :: rest) 990
      latencyP999Ns := percentile (least :: rest) 999
      latencyMaxNs := (least :: rest).getLast (List.cons_ne_nil least rest) }

/-- The registry after a number of observations. -/
def observe (observed : List UInt64) : LatencyRegistry :=
  observed.foldl observeLatencyNs {}

/-- The most recent observations, as many as the ring can hold. -/
def window (observed : List UInt64) : List UInt64 :=
  observed.drop (observed.length - latencyCapacity)

/-- The snapshot counts some values and has the least and the greatest of them. -/
def Reports (snapshot : MetricsSnapshot) (values : List UInt64) : Prop :=
  snapshot.latencyCount = values.length ∧
    (values ≠ [] → IsLeast { value | value ∈ values } snapshot.latencyMinNs ∧
      IsGreatest { value | value ∈ values } snapshot.latencyMaxNs)

/-! ### A snapshot -/

theorem Reports.perm {snapshot : MetricsSnapshot} {values others : List UInt64}
    (reports : Reports snapshot values) (same : values.Perm others) :
    Reports snapshot others := by
  obtain ⟨count, extremes⟩ := reports
  have members : { value | value ∈ values } = { value | value ∈ others } :=
    Set.ext fun value => same.mem_iff
  refine ⟨count.trans same.length_eq, fun nonempty => ?_⟩
  rw [← members]
  exact extremes fun none => nonempty (List.nil_perm.mp (none ▸ same))

/-- A snapshot reports the values it looks at. -/
theorem snapshot_reports (registry : LatencyRegistry) :
    Reports registry.snapshot registry.values := by
  have perm := List.mergeSort_perm registry.values (· ≤ ·)
  have sorted : (registry.values.mergeSort (· ≤ ·)).Pairwise
      fun first second => decide (first ≤ second) = true := by
    apply List.pairwise_mergeSort
    · simpa using fun first second third => UInt64.le_trans
    · simpa using UInt64.le_total
  simp only [decide_eq_true_eq] at sorted
  refine Reports.perm ?_ perm
  unfold snapshot
  cases order : registry.values.mergeSort (· ≤ ·) with
  | nil => exact ⟨rfl, fun nonempty => absurd rfl nonempty⟩
  | cons least rest =>
      rw [order] at sorted
      obtain ⟨below, -⟩ := List.pairwise_cons.mp sorted
      refine ⟨rfl, fun _ => ⟨⟨List.mem_cons_self, ?_⟩, List.getLast_mem _, ?_⟩⟩
      · intro value member
        rcases List.mem_cons.mp member with rfl | later
        · exact UInt64.le_refl _
        · exact below value later
      · intro value member
        exact sorted.rel_getLast_of_rel_getLast_getLast member (UInt64.le_refl _)

/-! ### Runs -/

theorem observe_concat (observed : List UInt64) (last : UInt64) :
    observe (observed ++ [last]) = (observe observed).observeLatencyNs last := by
  rw [observe, List.foldl_append]
  rfl

/-- The ring holds the window, and the write index counts the observations. -/
theorem observe_ring (observed : List UInt64) :
    (observe observed).latencyWriteIndex = UInt64.ofNat observed.length ∧
      Ring.Holds latencyCapacity (observe observed).latencySamples observed := by
  induction observed using List.reverseRecOn with
  | nil => exact ⟨rfl, Ring.holds_nil _⟩
  | append_singleton observed last ih =>
      obtain ⟨index, holds⟩ := ih
      have slot : (observe observed).latencyWriteIndex.toNat % latencyCapacity =
          observed.length % latencyCapacity := by
        rw [index, UInt64.toNat_ofNat']
        exact Nat.mod_mod_of_dvd _ (by decide)
      rw [observe_concat]
      refine ⟨?_, ?_⟩
      · show (observe observed).latencyWriteIndex + 1 = _
        rw [index, List.length_append, List.length_singleton, UInt64.ofNat_add]
        rfl
      · show Ring.Holds _ (Function.update _ _ last) _
        rw [slot]
        exact holds.concat last

theorem window_length (observed : List UInt64) :
    (window observed).length = min observed.length latencyCapacity := by
  rw [window, List.length_drop]
  omega

/-- What a snapshot reads of the ring, zeros included. -/
def looked (observed : List UInt64) : List UInt64 :=
  (List.range (min (observed.length % 2 ^ 64) latencyCapacity)).map
    (observe observed).latencySamples

theorem values_observe (observed : List UInt64) :
    (observe observed).values = (looked observed).filter (0 < ·) := by
  rw [values, (observe_ring observed).1, UInt64.toNat_ofNat']
  rfl

/-- It reads the window unless the write index has just wrapped. -/
theorem looked_perm_iff (observed : List UInt64) :
    (looked observed).Perm (window observed) ↔
      observed.length < 2 ^ 64 ∨ latencyCapacity ≤ observed.length % 2 ^ 64 := by
  have capacity : latencyCapacity = 65536 := rfl
  constructor
  · intro same
    have length := same.length_eq
    rw [window_length, looked, List.length_map, List.length_range] at length
    omega
  · intro index
    have whole : min (observed.length % 2 ^ 64) latencyCapacity =
        min observed.length latencyCapacity := by
      omega
    rw [looked, whole]
    exact (observe_ring observed).2.window_perm

/-- The snapshot reports the window exactly when no value in it is zero and the
write index has not just wrapped. -/
theorem snapshot_window_iff (observed : List UInt64) :
    Reports (observe observed).snapshot (window observed) ↔
      0 ∉ window observed ∧
        (observed.length < 2 ^ 64 ∨ latencyCapacity ≤ observed.length % 2 ^ 64) := by
  have reports := (observe observed).snapshot_reports
  rw [← looked_perm_iff]
  rw [values_observe] at reports
  constructor
  · intro whole
    have capacity : latencyCapacity = 65536 := rfl
    have kept : ((looked observed).filter (0 < ·)).length = (window observed).length :=
      reports.1.symm.trans whole.1
    have few := List.length_filter_le (fun value => decide (0 < value)) (looked observed)
    have count : (looked observed).length =
        min (observed.length % 2 ^ 64) latencyCapacity := by
      rw [looked, List.length_map, List.length_range]
    rw [kept, window_length, count] at few
    have same : (looked observed).Perm (window observed) := by
      rw [looked_perm_iff]
      omega
    have all : ((looked observed).filter (0 < ·)).length = (looked observed).length :=
      kept.trans same.length_eq.symm
    have nonzero := List.length_filter_eq_length_iff.mp all
    refine ⟨fun zero => ?_, same⟩
    have wrong := nonzero 0 (same.mem_iff.mpr zero)
    simp at wrong
  · rintro ⟨nonzero, same⟩
    have all : (looked observed).filter (0 < ·) = looked observed := by
      rw [List.filter_eq_self]
      intro value member
      rw [decide_eq_true_eq, UInt64.pos_iff_ne_zero]
      rintro rfl
      exact nonzero (same.mem_iff.mp member)
    rw [all] at reports
    exact reports.perm same

/-- A latency of zero, which the callers admit. -/
theorem zero_latency_lost : ¬ Reports (observe [0]).snapshot (window [0]) := by
  have nothing : (observe [0]).values = [] := by decide
  have count : (observe [0]).snapshot.latencyCount = 0 := by
    rw [snapshot, nothing, List.mergeSort_nil]
  intro reports
  exact absurd (count.symm.trans reports.1) (by decide)

end LatencyRegistry
end TradingPlatform
