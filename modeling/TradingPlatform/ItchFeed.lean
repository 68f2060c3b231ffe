import TradingPlatform.ItchQuote

set_option autoImplicit false

/- The receive loop of the simulated ITCH feed. -/
namespace TradingPlatform

open Decimal

/-- The process after some of its receive calls. -/
structure ItchLive where
  buffer : List UInt8 := []
  /-- The lines handed to the normalizer. -/
  passed : List (List UInt8) := []
  /-- What the normalizer has returned for them. -/
  results : List (Option NormalizedMarketData) := []
  deriving DecidableEq

namespace ItchLive

/-- Each call of the normalizer reads the clock twice. -/
abbrev Clock := Nat → TimestampNs × TimestampNs

def normalize (clock : Clock) (live : ItchLive) (line rest : List UInt8) :
    Except ReadError ItchLive := do
  let (sendTsNs, recvTsNs) := clock live.passed.length
  let md ← normalizeSimulatedItchQuote line 4 sendTsNs recvTsNs
  .ok { buffer := rest, passed := live.passed ++ [line], results := live.results ++ [md] }

/-- The inner loop, which takes lines out of the buffer while there are any. -/
def takeLines (clock : Clock) : Nat → ItchLive → Except ReadError ItchLive
  | 0, live => .ok live
  | fuel + 1, live =>
      match Delimited.cut '\n'.toUInt8 live.buffer with
      | none => .ok live
      | some (line, rest) => do
          let next ← live.normalize clock line rest
          takeLines clock fuel next

/-- What the loop does with the bytes of one receive call. Every line takes at
least one byte out of the buffer. -/
def receive (clock : Clock) (live : ItchLive) (chunk : List UInt8) : Except ReadError ItchLive :=
  let buffer := live.buffer ++ chunk
  takeLines clock buffer.length { live with buffer }

/-- The loop over the receive calls; one that returns nothing ends it. -/
def run (clock : Clock) (live : ItchLive) : List (List UInt8) → Except ReadError ItchLive
  | [] => .ok live
  | chunk :: chunks =>
      if chunk = [] then .ok live
      else do
        let next ← live.receive clock chunk
        run clock next chunks

/-! ### Lines that all normalize -/

/-- The results for lines that are handed over after some others. -/
def resultsFrom (answer : List UInt8 → TimestampNs × TimestampNs → Option NormalizedMarketData)
    (clock : Clock) (first : Nat) (lines : List (List UInt8)) :
    List (Option NormalizedMarketData) :=
  (lines.zipIdx first).map fun (line, call) => answer line (clock call)

variable (clock : Clock)
variable (answer : List UInt8 → TimestampNs × TimestampNs → Option NormalizedMarketData)

/-- The normalizer returns, with this answer. -/
def Answers (line : List UInt8) : Prop :=
  ∀ now, normalizeSimulatedItchQuote line 4 now.1 now.2 = .ok (answer line now)

theorem takeLines_lines (fuel : Nat) (live : ItchLive) (lines : List (List UInt8))
    (rest : List UInt8) (division : Delimited.Lines '\n'.toUInt8 live.buffer lines rest)
    (answers : ∀ line ∈ lines, Answers answer line) (enough : live.buffer.length ≤ fuel) :
    takeLines clock fuel live =
      .ok {
        buffer := rest
        passed := live.passed ++ lines
        results := live.results ++ resultsFrom answer clock live.passed.length lines } := by
  induction lines generalizing live fuel with
  | nil =>
      have whole : live.buffer = rest := division.whole
      have none := Delimited.cut_none rest division.unfinished
      have still : takeLines clock fuel live = .ok live := by
        cases fuel with
        | zero => rfl
        | succ fuel => rw [takeLines, whole, none]
      rw [still, ← whole, List.append_nil, resultsFrom, List.zipIdx_nil, List.map_nil,
        List.append_nil]
  | cons line lines ih =>
      have clean := division.clean line (List.mem_cons_self ..)
      have whole := division.whole
      rw [List.flatMap_cons, List.append_assoc, List.append_assoc, List.singleton_append] at whole
      have found := Delimited.cut_append line
        (lines.flatMap (fun line => line ++ ['\n'.toUInt8]) ++ rest) clean
      rw [← whole] at found
      cases fuel with
      | zero =>
          rw [whole, List.length_append, List.length_cons] at enough
          omega
      | succ fuel =>
          have answered := answers line (List.mem_cons_self ..) (clock live.passed.length)
          rw [takeLines, found]
          simp only [normalize, answered]
          have shorter : (lines.flatMap (fun line => line ++ ['\n'.toUInt8]) ++ rest).length ≤
              fuel := by
            rw [whole, List.length_append, List.length_cons] at enough
            omega
          have later := ih fuel {
              buffer := lines.flatMap (fun line => line ++ ['\n'.toUInt8]) ++ rest
              passed := live.passed ++ [line]
              results := live.results ++ [answer line (clock live.passed.length)] }
            ⟨rfl, fun other member => division.clean other (List.mem_cons_of_mem _ member),
              division.unfinished⟩
            (fun other member => answers other (List.mem_cons_of_mem _ member)) shorter
          refine later.trans ?_
          simp [resultsFrom]

/-- The chunks do not matter: the lines of the whole stream are passed on, and
what is behind the last newline stays in the buffer. -/
theorem run_lines (live : ItchLive) (chunks : List (List UInt8)) (lines : List (List UInt8))
    (rest : List UInt8) (started : '\n'.toUInt8 ∉ live.buffer)
    (division : Delimited.Lines '\n'.toUInt8 (live.buffer ++ chunks.flatten) lines rest)
    (answers : ∀ line ∈ lines, Answers answer line) (some : ∀ chunk ∈ chunks, chunk ≠ []) :
    run clock live chunks =
      .ok {
        buffer := rest
        passed := live.passed ++ lines
        results := live.results ++ resultsFrom answer clock live.passed.length lines } := by
  induction chunks generalizing live lines with
  | nil =>
      rw [List.flatten_nil, List.append_nil] at division
      obtain ⟨none, same⟩ := (Delimited.Lines.nil live.buffer started).unique division
      rw [run, ← none, ← same, List.append_nil, resultsFrom, List.zipIdx_nil, List.map_nil,
        List.append_nil]
  | cons chunk chunks ih =>
      obtain ⟨early, middle, first⟩ := Delimited.Lines.exists '\n'.toUInt8 (live.buffer ++ chunk)
      obtain ⟨late, last, second⟩ :=
        Delimited.Lines.exists '\n'.toUInt8 (middle ++ chunks.flatten)
      rw [List.flatten_cons, ← List.append_assoc] at division
      obtain ⟨same, sameRest⟩ := division.unique (first.append second)
      rw [same] at answers
      have received : live.receive clock chunk =
          .ok {
            buffer := middle
            passed := live.passed ++ early
            results := live.results ++ resultsFrom answer clock live.passed.length early } :=
        takeLines_lines clock answer _ { live with buffer := live.buffer ++ chunk } early middle first
          (fun line member => answers line (List.mem_append_left _ member)) (Nat.le_refl _)
      have later := ih {
          buffer := middle
          passed := live.passed ++ early
          results := live.results ++ resultsFrom answer clock live.passed.length early }
        late first.unfinished (sameRest ▸ second)
        (fun line member => answers line (List.mem_append_right _ member))
        (fun other member => some other (List.mem_cons_of_mem _ member))
      rw [run, if_neg (some chunk (List.mem_cons_self ..)), received]
      refine later.trans ?_
      simp only [same, List.append_assoc, resultsFrom, List.zipIdx_append, List.map_append,
        List.length_append]

end ItchLive

/-! ### Quotes -/

/-- A quote as the feed sends it. -/
structure ItchQuote where
  sequence : Sequence
  symbol : List UInt8
  bidPx : Price
  bidQty : Quantity
  askPx : Price
  askQty : Quantity
  sequence_lt : sequence < 2 ^ 64
  short : symbol.length ≤ 15
  plain : '|'.toUInt8 ∉ symbol ∧ '\n'.toUInt8 ∉ symbol ∧ 0 ∉ symbol

namespace ItchQuote

/-- `Q|sequence|symbol|bid_px|bid_qty|ask_px|ask_qty`, without the newline. -/
def line (quote : ItchQuote) : List UInt8 :=
  joinPipes [ascii "Q", render quote.sequence, quote.symbol, renderInt quote.bidPx.toInt,
    renderInt quote.bidQty.toInt, renderInt quote.askPx.toInt, renderInt quote.askQty.toInt]

/-- The update of the quote, made at the given readings of the clock. -/
def update (quote : ItchQuote) (now : TimestampNs × TimestampNs) : MarketDataUpdate :=
  makeUpdate .simulatedItch 4 quote.symbol quote.bidPx quote.bidQty quote.askPx quote.askQty
    quote.sequence now.1 now.2

theorem readsAs_word (word : Int64) : ReadsAs (renderInt word.toInt) word := by
  have reads := readsAs_signed _ _ (signed_renderInt word.toInt) (SignedWord.fits_toInt word)
  rw [Int64.ofInt_toInt] at reads
  exact reads

theorem normalize_line (quote : ItchQuote) (now : TimestampNs × TimestampNs) :
    normalizeSimulatedItchQuote quote.line 4 now.1 now.2 =
      .ok (some { venue := .simulatedItch, update := quote.update now }) := by
  have number : Unsigned64 (render quote.sequence) :=
    ⟨render_ne_nil _, render_digits _, (value_render quote.sequence).symm ▸ quote.sequence_lt⟩
  have reads := normalizeSimulatedItchQuote_reads (render quote.sequence) quote.symbol number
    quote.plain.1 (readsAs_word quote.bidPx) (readsAs_word quote.bidQty)
    (readsAs_word quote.askPx) (readsAs_word quote.askQty) 4 now.1 now.2
  rw [value_render] at reads
  exact reads

theorem newline_not_mem_digits {digits : List UInt8} (all : Digits digits) :
    '\n'.toUInt8 ∉ digits :=
  fun member => absurd (all _ member) (by decide)

theorem newline_not_mem_renderInt (number : Int) : '\n'.toUInt8 ∉ renderInt number := by
  cases number with
  | ofNat number => exact newline_not_mem_digits (render_digits number)
  | negSucc number =>
      intro member
      rcases List.mem_cons.mp member with sign | later
      · exact absurd sign (by decide)
      · exact newline_not_mem_digits (render_digits _) later

theorem newline_not_mem_line (quote : ItchQuote) : '\n'.toUInt8 ∉ quote.line := by
  have tag : '\n'.toUInt8 ∉ ascii "Q" := by decide
  have pipe : '\n'.toUInt8 ≠ '|'.toUInt8 := by decide
  have sequence := newline_not_mem_digits (render_digits quote.sequence)
  simp only [line, joinPipes, List.intercalate, List.intersperse, List.flatten_cons,
    List.flatten_nil, List.mem_append, List.mem_singleton, List.not_mem_nil, tag, pipe, sequence,
    quote.plain.2.1, newline_not_mem_renderInt, or_self, not_false_eq_true]

theorem lines_quotes (quotes : List ItchQuote) (rest : List UInt8)
    (unfinished : '\n'.toUInt8 ∉ rest) :
    Delimited.Lines '\n'.toUInt8
      (quotes.flatMap (fun quote => quote.line ++ ['\n'.toUInt8]) ++ rest)
      (quotes.map line) rest := by
  refine ⟨by rw [List.flatMap_map], ?_, unfinished⟩
  intro written member
  obtain ⟨quote, _, same⟩ := List.mem_map.mp member
  rw [← same]
  exact quote.newline_not_mem_line

end ItchQuote

/-- What the normalizer returns for a line that does not make it throw. -/
def ItchLive.answer (line : List UInt8) (now : TimestampNs × TimestampNs) :
    Option NormalizedMarketData :=
  match normalizeSimulatedItchQuote line 4 now.1 now.2 with
  | .ok md => md
  | .error _ => none

/-- Whatever the chunks, the feed's lines are passed on one by one, each comes
back as its quote, and the bytes of an unfinished line wait in the buffer. -/
theorem ItchLive.run_quotes (clock : ItchLive.Clock) (quotes : List ItchQuote)
    (rest : List UInt8) (chunks : List (List UInt8)) (unfinished : '\n'.toUInt8 ∉ rest)
    (bytes : chunks.flatten =
      quotes.flatMap (fun quote => quote.line ++ ['\n'.toUInt8]) ++ rest)
    (some : ∀ chunk ∈ chunks, chunk ≠ []) :
    ∃ updates : List MarketDataUpdate,
      ItchLive.run clock {} chunks =
        .ok {
          buffer := rest
          passed := quotes.map ItchQuote.line
          results := updates.map fun update => .some { venue := .simulatedItch, update } } ∧
      updates.map (fun update => (update.exchangeSequence, update.symbol.str, update.bidPx,
          update.bidQty, update.askPx, update.askQty)) =
        quotes.map fun quote => (quote.sequence, quote.symbol, quote.bidPx, quote.bidQty,
          quote.askPx, quote.askQty) := by
  have answered : ∀ (quote : ItchQuote) now, answer quote.line now =
      .some { venue := .simulatedItch, update := quote.update now } := by
    intro quote now
    rw [answer, quote.normalize_line]
  refine ⟨quotes.zipIdx.map fun (quote, call) => quote.update (clock call), ?_, ?_⟩
  · have ran := ItchLive.run_lines clock answer {} chunks (quotes.map ItchQuote.line) rest
      (by simp) (bytes ▸ ItchQuote.lines_quotes quotes rest unfinished) ?_ some
    · refine ran.trans ?_
      simp only [List.nil_append, resultsFrom, List.length_nil, List.zipIdx_map, List.map_map,
        Function.comp_def, Prod.map_fst, Prod.map_snd, id, answered]
    · intro line member now
      obtain ⟨quote, _, same⟩ := List.mem_map.mp member
      rw [← same, answered, quote.normalize_line]
  · have fields : ∀ (quote : ItchQuote) now,
        ((quote.update now).exchangeSequence, (quote.update now).symbol.str,
          (quote.update now).bidPx, (quote.update now).bidQty, (quote.update now).askPx,
          (quote.update now).askQty) =
        (quote.sequence, quote.symbol, quote.bidPx, quote.bidQty, quote.askPx, quote.askQty) := by
      intro quote now
      simp only [ItchQuote.update, makeUpdate,
        Symbol.str_ofText quote.symbol quote.short quote.plain.2.2]
    have original : quotes.zipIdx.map (fun entry => entry.1) = quotes := List.zipIdx_map_fst 0 quotes
    simp only [List.map_map, Function.comp_def, fields]
    conv_rhs => rw [← original]
    rw [List.map_map]
    exact rfl

/-- The first quote arrives in two pieces, the second is not complete. -/
theorem ItchLive.run_torn_quote :
    ∃ quotes : List ItchQuote,
      quotes.map ItchQuote.line = [ascii "Q|1000|MSFT|42125|300|-1|400"] ∧
      ∃ updates : List MarketDataUpdate,
        ItchLive.run (fun _ => (7, 8)) {}
            [ascii "Q|1000|MS", ascii "FT|42125|300|-1|400\nQ|1001|M"] =
          .ok {
            buffer := ascii "Q|1001|M"
            passed := quotes.map ItchQuote.line
            results := updates.map fun update => some { venue := .simulatedItch, update } } ∧
        updates.map (fun update => (update.exchangeSequence, update.symbol.str, update.bidPx,
            update.bidQty, update.askPx, update.askQty)) =
          quotes.map fun quote => (quote.sequence, quote.symbol, quote.bidPx, quote.bidQty,
            quote.askPx, quote.askQty) :=
  ⟨[{ sequence := 1000
      symbol := ascii "MSFT"
      bidPx := 42125
      bidQty := 300
      askPx := -1
      askQty := 400
      sequence_lt := by decide
      short := by decide
      plain := by decide }], by decide,
    ItchLive.run_quotes (fun _ => (7, 8)) _ (ascii "Q|1001|M")
      [ascii "Q|1000|MS", ascii "FT|42125|300|-1|400\nQ|1001|M"] (by decide) (by decide) (by decide)⟩

end TradingPlatform
