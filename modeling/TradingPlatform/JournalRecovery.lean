import Mathlib.Data.Finset.Lattice.Lemmas
import TradingPlatform.JournalLog
import TradingPlatform.Library.Transducer
import TradingPlatform.MessageObjects

set_option autoImplicit false

/- The journal read back after a crash. The records that are complete in what is
left of the file are the entries up to some moment, and the live orders of that
moment can be worked out from them. -/
namespace TradingPlatform

def JournalRecordType.ofCode (code : UInt8) : Option JournalRecordType :=
  [.unknown, .orderIntent, .gatewayAck, .gatewayReject, .fill, .runtimeMarker].find?
    (fun type : JournalRecordType => type.code = code)

theorem JournalRecordType.ofCode_code (type : JournalRecordType) :
    JournalRecordType.ofCode type.code = some type := by
  cases type <;> decide

/-- The entry that a record on disk holds. -/
def Journal.JournalRecord.entry? (record : Journal.JournalRecord) : Option JournalEntry :=
  (JournalRecordType.ofCode record.header.recordType).bind fun recordType =>
    (Wire.message record.envelope).map fun envelope =>
      ⟨recordType, envelope, record.header.sequence.toNat, record.header.tsNs.toNat⟩

theorem JournalLog.open_entries (journal : JournalLog) (io : JournalIo) :
    (journal.open io).1.entries = journal.entries := by
  unfold JournalLog.open
  split
  · rfl
  · split <;> rfl

namespace JournalEntry

def Fits (entry : JournalEntry) : Prop :=
  entry.envelope.Fits ∧ entry.sequence < 2 ^ 64 ∧ entry.tsNs < 2 ^ 64

instance (entry : JournalEntry) : Decidable entry.Fits := by
  unfold Fits; infer_instance

theorem record_entry (entry : JournalEntry) (fits : entry.Fits) :
    entry.call.record.entry? = some entry := by
  obtain ⟨recordType, envelope, sequence, tsNs⟩ := entry
  obtain ⟨message, numbered, timed⟩ := fits
  have held : Wire.message (Wire.ofEnvelope envelope) = some envelope :=
    (Wire.message_ofEnvelope envelope).mpr message
  simp only [Journal.JournalRecord.entry?, call, Journal.AppendCall.record,
    JournalRecordType.ofCode_code, held, Option.bind_some, Option.map_some]
  rw [UInt64.toNat_ofNat_of_lt' numbered, UInt64.toNat_ofNat_of_lt' timed]

/-- What an entry says about the live orders. -/
def settle (live : Finset ClientOrderId) (entry : JournalEntry) : Finset ClientOrderId :=
  match entry.recordType, entry.envelope with
  | .orderIntent, .newOrder order => insert order.clientOrderId live
  | .gatewayReject, .reject reject => live.erase reject.clientOrderId
  | _, _ => live

end JournalEntry

namespace Journal

/-- The file that the appends of some entries write. -/
def fileOf (entries : List JournalEntry) : List UInt8 :=
  (appendAll {} (entries.map JournalEntry.call)).1.file

def readEntries (file : List UInt8) : List JournalEntry :=
  (readAll file).filterMap JournalRecord.entry?

/-- The live orders that the entries of a journal lead to. -/
def recover (entries : List JournalEntry) : Finset ClientOrderId :=
  entries.foldl JournalEntry.settle ∅

@[simp] theorem recover_nil : recover [] = ∅ := rfl

@[simp] theorem recover_concat (entries : List JournalEntry) (entry : JournalEntry) :
    recover (entries ++ [entry]) = JournalEntry.settle (recover entries) entry := by
  simp [recover]

/-- Recovered orders that are the live ones, but for some that were there before. -/
structure Tracks (earlier live recovered : Finset ClientOrderId) : Prop where
  complete : live ⊆ recovered
  covered : recovered ⊆ live ∪ earlier

namespace Tracks

variable {earlier live recovered : Finset ClientOrderId}

/-- Nothing is live at a start, whatever earlier runs have left. -/
theorem start : Tracks earlier ∅ earlier where
  complete := Finset.empty_subset _
  covered := Finset.subset_union_right

theorem insert (tracks : Tracks earlier live recovered) (id : ClientOrderId) :
    Tracks earlier (insert id live) (insert id recovered) where
  complete := Finset.insert_subset_insert id tracks.complete
  covered := by
    rw [Finset.insert_union]
    exact Finset.insert_subset_insert id tracks.covered

theorem erase (tracks : Tracks earlier live recovered) (id : ClientOrderId) :
    Tracks earlier (live.erase id) (recovered.erase id) where
  complete := Finset.erase_subset_erase id tracks.complete
  covered := by
    intro other member
    obtain ⟨apart, found⟩ := Finset.mem_erase.mp member
    rcases Finset.mem_union.mp (tracks.covered found) with now | before
    · exact Finset.mem_union_left _ (Finset.mem_erase.mpr ⟨apart, now⟩)
    · exact Finset.mem_union_right _ before

/-- When earlier runs have left nothing live, the two are the same. -/
theorem exact (tracks : Tracks ∅ live recovered) : recovered = live := by
  have covered := tracks.covered
  rw [Finset.union_empty] at covered
  exact Finset.Subset.antisymm covered tracks.complete

end Tracks

/-- The entries that an append accepts and a reader understands. -/
def Sound (entries : List JournalEntry) : Prop :=
  ∀ entry ∈ entries, entry.call.Supported ∧ entry.Fits

theorem fileOf_eq (entries : List JournalEntry) (sound : Sound entries) :
    fileOf entries =
      (entries.map fun entry => entry.call.record).flatMap JournalRecord.image := by
  have all : (entries.map JournalEntry.call).filter AppendCall.Supported =
      entries.map JournalEntry.call := by
    rw [List.filter_eq_self]
    intro call member
    obtain ⟨entry, recorded, rfl⟩ := List.mem_map.mp member
    exact decide_eq_true (sound entry recorded).1
  unfold fileOf
  rw [(appendAll_eq {} _).1, all, List.nil_append, List.flatMap_map, List.flatMap_map]

/-- What is left of a journal reads as the entries that are complete in it. -/
theorem readEntries_take (entries : List JournalEntry) (sound : Sound entries) (cut : Nat) :
    readEntries ((fileOf entries).take cut) =
      Framing.within (fun entry : JournalEntry => entry.call.record.image) cut entries := by
  have records : ∀ record ∈ entries.map fun entry => entry.call.record, record.Sound := by
    intro record member
    obtain ⟨entry, recorded, rfl⟩ := List.mem_map.mp member
    exact entry.call.record_sound (sound entry recorded).1
  unfold readEntries
  rw [fileOf_eq entries sound, readAll_frames _ records cut, Framing.within_map,
    List.filterMap_map]
  have kept := (Framing.prefix_within (JournalRecord.image ∘ fun entry : JournalEntry =>
    entry.call.record) cut entries).subset
  have read : ∀ entry ∈ Framing.within (JournalRecord.image ∘ fun entry : JournalEntry =>
      entry.call.record) cut entries,
      (JournalRecord.entry? ∘ fun entry : JournalEntry => entry.call.record) entry =
        some entry :=
    fun entry member => entry.record_entry (sound entry (kept member)).2
  rw [List.filterMap_congr read, List.filterMap_some]
  rfl

/-! ### Components that journal -/

section Component

variable {σ α : Type} (step : σ → α → σ) (journal : σ → JournalLog)

/-- A step appends one entry at most, and none that the writer does not accept. -/
def Appends : Prop :=
  ∀ s input, ∃ new : List JournalEntry, new.length ≤ 1 ∧ (∀ entry ∈ new, entry.call.Supported) ∧
    (journal (step s input)).entries = (journal s).entries ++ new

/-- The step with the entries that it appends. -/
def journaled (s : σ) (input : α) : σ × List JournalEntry :=
  (step s input, (journal (step s input)).entries.drop (journal s).entries.length)

variable {step journal} (appends : Appends step journal)
include appends

theorem journaled_entries (s : σ) (input : α) :
    (journaled step journal s input).2.length ≤ 1 ∧
      (∀ entry ∈ (journaled step journal s input).2, entry.call.Supported) ∧
      (journal (step s input)).entries =
        (journal s).entries ++ (journaled step journal s input).2 := by
  obtain ⟨new, single, supported, grown⟩ := appends s input
  have same : (journaled step journal s input).2 = new := by
    rw [journaled, grown, List.drop_left]
  rw [same]
  exact ⟨single, supported, grown⟩

theorem entries_after (s : σ) (inputs : List α) :
    (journal (Transducer.after (journaled step journal) s inputs)).entries =
      (journal s).entries ++ Transducer.emitted (journaled step journal) s inputs := by
  induction inputs generalizing s with
  | nil => exact (List.append_nil _).symm
  | cons input rest ih =>
      rw [Transducer.after_cons, Transducer.emitted_cons, ih, ← List.append_assoc]
      exact congrArg (· ++ _) (journaled_entries appends s input).2.2

theorem emitted_supported (s : σ) (inputs : List α) :
    ∀ entry ∈ Transducer.emitted (journaled step journal) s inputs, entry.call.Supported := by
  induction inputs generalizing s with
  | nil => exact fun _ member => absurd member List.not_mem_nil
  | cons input rest ih =>
      rw [Transducer.emitted_cons, List.forall_mem_append]
      exact ⟨(journaled_entries appends s input).2.1, ih _⟩

/-- The file of a component, cut anywhere behind what the start found in it, reads
as the journal of an earlier moment: that of the start, or behind the step that
appended the last record that is complete. What was complete at a moment within
the cut is not lost. -/
theorem cut_moment (s : σ) (supported : ∀ entry ∈ (journal s).entries, entry.call.Supported)
    (inputs : List α) (cut : Nat)
    (fits : ∀ entry ∈ (journal (Transducer.after (journaled step journal) s inputs)).entries,
      entry.Fits) :
    let before := (fileOf (journal s).entries).length
    ∃ moment, moment <+: inputs ∧
      readEntries ((fileOf (journal
        (Transducer.after (journaled step journal) s inputs)).entries).take (before + cut)) =
        (journal (Transducer.after (journaled step journal) s moment)).entries ∧
      (moment = [] ∨ ∃ earlier input, moment = earlier ++ [input] ∧
        (journaled step journal (Transducer.after (journaled step journal) s earlier) input).2 ≠
          []) ∧
      ∀ earlier, earlier <+: inputs →
        (fileOf (journal (Transducer.after (journaled step journal) s earlier)).entries).length ≤
          before + cut →
        (journal (Transducer.after (journaled step journal) s earlier)).entries <+:
          (journal (Transducer.after (journaled step journal) s moment)).entries := by
  intro before
  let image := fun entry : JournalEntry => entry.call.record.image
  simp only [entries_after appends s] at fits ⊢
  obtain ⟨old, new⟩ := (List.forall_mem_append).mp fits
  have front : Sound (journal s).entries :=
    fun entry member => ⟨supported entry member, old entry member⟩
  have grown : ∀ moment, moment <+: inputs →
      Sound ((journal s).entries ++ Transducer.emitted (journaled step journal) s moment) := by
    intro moment within
    have begins := Transducer.prefix_emitted (journaled step journal) s within
    refine List.forall_mem_append.mpr ⟨front, fun entry member => ?_⟩
    exact ⟨emitted_supported appends s moment entry member, new entry (begins.subset member)⟩
  have length : before = ((journal s).entries.flatMap image).length := by
    show (fileOf (journal s).entries).length = _
    rw [fileOf_eq _ front, List.flatMap_map]
  rw [readEntries_take _ (grown inputs (List.prefix_refl _)), length, Framing.within_append]
  have begins := Framing.prefix_within image cut
    (Transducer.emitted (journaled step journal) s inputs)
  have kept : ∀ earlier, earlier <+: inputs →
      (fileOf ((journal s).entries ++
        Transducer.emitted (journaled step journal) s earlier)).length ≤
          ((journal s).entries.flatMap image).length + cut →
      Transducer.emitted (journaled step journal) s earlier <+:
        Framing.within image cut (Transducer.emitted (journaled step journal) s inputs) := by
    intro earlier within short
    rw [fileOf_eq _ (grown earlier within), List.flatMap_map, List.flatMap_append,
      List.length_append] at short
    exact Framing.prefix_within_of_length image cut _ _
      (Transducer.prefix_emitted (journaled step journal) s within) (Nat.add_le_add_iff_left.mp short)
  rcases Transducer.moment (journaled step journal)
    (fun s input => (journaled_entries appends s input).1) s inputs _ begins with
    none | ⟨earlier, input, within, same, made⟩
  · refine ⟨[], List.nil_prefix, congrArg _ none, Or.inl rfl, fun earlier within short => ?_⟩
    have nothing := kept earlier within short
    rw [none] at nothing
    exact (List.prefix_append_right_inj _).mpr nothing
  · refine ⟨earlier ++ [input], within, congrArg _ same.symm, Or.inr ⟨earlier, input, rfl, made⟩,
      ?_⟩
    intro other within short
    rw [same]
    exact (List.prefix_append_right_inj _).mpr (kept other within short)

end Component

/-- An append adds its entry, or nothing. -/
theorem append_adds (journal : JournalLog) (io : JournalIo) (recordType : JournalRecordType)
    (envelope : Envelope) (sequence : Sequence) :
    ∃ new : List JournalEntry, new.length ≤ 1 ∧ (∀ entry ∈ new, entry.call.Supported) ∧
      (journal.append io recordType envelope sequence).1.entries = journal.entries ++ new := by
  by_cases supported : Wire.payloadSizeForType envelope.type.code = 0
  · refine ⟨[], by simp, by simp, ?_⟩
    rw [List.append_nil]
    unfold JournalLog.append JournalLog.open
    cases journal.opened <;> cases io.opens <;> simp [supported]
  · have entries := (journal.append_entries io recordType envelope sequence supported).1
    refine ⟨_, ?_, ?_, entries⟩
    · split <;> simp
    · split
      · rw [List.forall_mem_singleton]
        exact supported
      · exact fun _ member => absurd member List.not_mem_nil

end Journal
end TradingPlatform
