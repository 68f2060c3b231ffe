import Mathlib.Data.List.TakeWhile
import Mathlib.Data.Prod.Lex
import TradingPlatform.Library.Sorting
import TradingPlatform.ReplayFile

set_option autoImplicit false

/- Merging replay files into one timeline. -/
namespace TradingPlatform.Replay

/-- A reader on a path: nothing if it cannot be opened. -/
def readFile (files : String → Option (List UInt8)) (path : String) : List RawEvent :=
  match files path with
  | none => []
  | some file => readAll file

/-- The comparator of the merge. -/
def comesBefore (a b : RawEvent) : Bool :=
  if a.header.timestampNs ≠ b.header.timestampNs then
    a.header.timestampNs < b.header.timestampNs
  else if a.header.sequence ≠ b.header.sequence then
    a.header.sequence < b.header.sequence
  else a.header.nodeRole < b.header.nodeRole

/-- What the surroundings contribute to the output: whether it opens, and the
faults of its appends. -/
structure MergeIo where
  opens : Bool := true
  fault : Nat → WriteFault := fun _ => {}

/-- The loop of appends, whose results nobody looks at. -/
def appendEvents (io : MergeIo) (writer : FileWriter) (events : List RawEvent) : FileWriter :=
  events.zipIdx.foldl (fun writer entry => (writer.appendEvent entry.1 (io.fault entry.2)).1)
    writer

/-- The output file, if the program gets to open one. -/
def replayMerge (std : Sorting.Sorter RawEvent) (files : String → Option (List UInt8))
    (inputs : List String) (io : MergeIo) : Option (List UInt8) :=
  if inputs = [] then none
  else
    let events := std.sort comesBefore (inputs.flatMap (readFile files))
    if !io.opens then none
    else some (appendEvents io { opened := true } events).file

/-! ### The comparator -/

/-- The triple that the comparator compares. -/
def mergeKey (event : RawEvent) : Nat ×ₗ Nat ×ₗ Nat :=
  toLex (event.header.timestampNs.toNat,
    toLex (event.header.sequence.toNat, event.header.nodeRole.toNat))

theorem comesBefore_iff (a b : RawEvent) :
    comesBefore a b = true ↔ mergeKey a < mergeKey b := by
  unfold comesBefore mergeKey
  rw [Prod.Lex.toLex_lt_toLex, Prod.Lex.toLex_lt_toLex]
  by_cases time : a.header.timestampNs = b.header.timestampNs
  · by_cases sequence : a.header.sequence = b.header.sequence
    · simp [time, sequence, UInt8.lt_iff_toNat_lt]
    · simp [time, sequence, UInt64.lt_iff_toNat_lt, UInt64.toNat_inj]
  · simp [time, UInt64.lt_iff_toNat_lt, UInt64.toNat_inj]

theorem comesBefore_order : IsStrictWeakOrder RawEvent fun a b => comesBefore a b = true :=
  Sorting.strictWeakOrder_of_key comesBefore mergeKey comesBefore_iff

/-- The timestamps do not go back and the sequences increase. -/
def InOrder (events : List RawEvent) : Prop :=
  events.Pairwise fun a b => a.header.timestampNs ≤ b.header.timestampNs ∧
    a.header.sequence < b.header.sequence

instance (events : List RawEvent) : Decidable (InOrder events) := by
  unfold InOrder; infer_instance

theorem InOrder.increasing {events : List RawEvent} (ordered : InOrder events) :
    events.Pairwise fun a b => comesBefore a b = true := by
  apply List.Pairwise.imp _ ordered
  rintro a b ⟨time, sequence⟩
  unfold comesBefore
  split
  · rename_i other
    exact decide_eq_true (UInt64.lt_of_le_of_ne time other)
  · rw [if_pos (UInt64.ne_of_lt sequence)]
    exact decide_eq_true sequence

/-! ### The output -/

theorem appendEvents_file (io : MergeIo) (works : ∀ index, io.fault index = {})
    (writer : FileWriter) (opened : writer.opened = true) (events : List RawEvent) :
    (appendEvents io writer events).file = writer.file ++ events.flatMap RawEvent.image := by
  unfold appendEvents
  generalize 0 = start
  induction events generalizing writer start with
  | nil => simp
  | cons event events ih =>
      have step : (writer.appendEvent event (io.fault start)).1 =
          { writer with file := writer.file ++ event.image } := by
        simp [FileWriter.appendEvent, opened, works]
      rw [List.zipIdx_cons, List.foldl_cons, step,
        ih { writer with file := writer.file ++ event.image } opened, List.flatMap_cons,
        List.append_assoc]

theorem readFile_sound (files : String → Option (List UInt8)) (path : String) :
    ∀ event ∈ readFile files path, event.Sound := by
  unfold readFile
  cases files path with
  | none => simp
  | some file => exact readAll_sound file

/-- Read back, the output is the sorted events of the inputs. -/
theorem readAll_replayMerge (std : Sorting.Sorter RawEvent)
    (files : String → Option (List UInt8)) (inputs : List String) (io : MergeIo)
    (works : ∀ index, io.fault index = {}) (merged : List UInt8)
    (written : replayMerge std files inputs io = some merged) :
    readAll merged = std.sort comesBefore (inputs.flatMap (readFile files)) := by
  have sound : ∀ event ∈ std.sort comesBefore (inputs.flatMap (readFile files)),
      event.Sound := by
    intro event member
    have source := (std.perm comesBefore comesBefore_order _).mem_iff.mp member
    obtain ⟨path, -, read⟩ := List.mem_flatMap.mp source
    exact readFile_sound files path event read
  unfold replayMerge at written
  split at written
  · cases written
  · dsimp only at written
    split at written
    · cases written
    · cases written
      rw [appendEvents_file io works _ rfl, List.nil_append, readAll_images,
        List.takeWhile_eq_self_iff]
      exact fun event member => decide_eq_true (sound event member)

/-- The merged file is written exactly when there is an input and the output
opens. It holds every event that the inputs deliver, once for each time it is
delivered, sorted by time, sequence and role, and an input that is in order
keeps its order. -/
theorem replayMerge_timeline (std : Sorting.Sorter RawEvent)
    (files : String → Option (List UInt8)) (inputs : List String) (io : MergeIo)
    (works : ∀ index, io.fault index = {}) :
    ((replayMerge std files inputs io).isSome ↔ inputs ≠ [] ∧ io.opens = true) ∧
    ∀ merged, replayMerge std files inputs io = some merged →
      (readAll merged).Perm (inputs.flatMap (readFile files)) ∧
      (readAll merged).Pairwise (fun first second => mergeKey first ≤ mergeKey second) ∧
      ∀ path ∈ inputs, InOrder (readFile files path) →
        (readFile files path).Sublist (readAll merged) := by
  constructor
  · unfold replayMerge
    by_cases empty : inputs = [] <;> cases opens : io.opens <;> simp [empty]
  · intro merged written
    have perm := std.perm comesBefore comesBefore_order (inputs.flatMap (readFile files))
    have sorted := std.sorted comesBefore comesBefore_order (inputs.flatMap (readFile files))
    rw [readAll_replayMerge std files inputs io works merged written]
    refine ⟨perm, (Sorting.sorted_iff_key comesBefore mergeKey comesBefore_iff _).mp sorted, ?_⟩
    intro path member ordered
    have part : (readFile files path).Subperm
        (std.sort comesBefore (inputs.flatMap (readFile files))) := by
      have own : (readFile files path).Sublist (inputs.flatMap (readFile files)) :=
        List.sublist_flatten_of_mem (List.mem_map_of_mem member)
      exact own.subperm.trans perm.symm.subperm
    exact Sorting.sublist_of_increasing comesBefore _ _ sorted ordered.increasing part

/-- An event with an empty envelope. -/
def timedEvent (timestampNs sequence : UInt64) : RawEvent where
  header := {
    sequence := sequence
    timestampNs := timestampNs
    checksum := Wire.checksum (List.replicate envelopeSize 0) }
  envelope := List.replicate envelopeSize 0
  sized := List.length_replicate

/-- Two files whose events interleave. -/
def twoFiles (path : String) : Option (List UInt8) :=
  if path = "strategy" then some ([timedEvent 20 1, timedEvent 40 2].flatMap RawEvent.image)
  else if path = "oms" then some ([timedEvent 30 1].flatMap RawEvent.image)
  else none

theorem replayMerge_timeline_twoFiles :
    ∃ merged,
      replayMerge Sorting.mergeSorter twoFiles ["strategy", "oms"] {} = some merged ∧
      (readAll merged).Perm (["strategy", "oms"].flatMap (readFile twoFiles)) ∧
      (readAll merged).Pairwise (fun first second => mergeKey first ≤ mergeKey second) ∧
      ∀ path ∈ ["strategy", "oms"], InOrder (readFile twoFiles path) →
        (readFile twoFiles path).Sublist (readAll merged) := by
  obtain ⟨produced, timeline⟩ :=
    replayMerge_timeline Sorting.mergeSorter twoFiles ["strategy", "oms"] {} fun _ => rfl
  have some_ := produced.mpr ⟨List.cons_ne_nil _ _, rfl⟩
  obtain ⟨merged, written⟩ := Option.isSome_iff_exists.mp some_
  exact ⟨merged, written, timeline merged written⟩

end TradingPlatform.Replay
