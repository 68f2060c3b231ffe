import TradingPlatform.JsonTickers

set_option autoImplicit false

/- The normalizer of Hyperliquid's book messages, and the messages of the shape
that it is written for. -/
namespace TradingPlatform

open Decimal ByteSearch
open FlatJson (quote colon comma opening closing)

/-- The texts of the symbol, the time and the top of the book. -/
def hyperliquidTexts (rawJson : List UInt8) : Option QuoteFields := do
  let _ ← find (ascii "\"channel\":\"l2Book\"") rawJson
  let coin ← extractJsonString rawJson (ascii "coin")
  let time ← extractJsonNumberAsString rawJson (ascii "time")
  let levelsPos ← find (quoted quote (ascii "levels")) rawJson
  let firstPxPos ← findFrom (quoted quote (ascii "px")) rawJson levelsPos
  let firstSzPos ← findFrom (quoted quote (ascii "sz")) rawJson firstPxPos
  let bidPx := extractJsonString (rawJson.drop firstPxPos) (ascii "px")
  let bidSz := extractJsonString (rawJson.drop firstSzPos) (ascii "sz")
  let secondArrayPos ← findFrom (ascii "],[") rawJson firstSzPos
  let askPxPos ← findFrom (quoted quote (ascii "px")) rawJson secondArrayPos
  let askSzPos ← findFrom (quoted quote (ascii "sz")) rawJson askPxPos
  let askPx := extractJsonString (rawJson.drop askPxPos) (ascii "px")
  let askSz := extractJsonString (rawJson.drop askSzPos) (ascii "sz")
  return {
    symbol := coin
    sequence := time
    bidPx := ← bidPx
    bidQty := ← bidSz
    askPx := ← askPx
    askQty := ← askSz }

def normalizeHyperliquidL2Book (rawJson : List UInt8) (symbolId : SymbolId)
    (sendTsNs recvTsNs : TimestampNs) : Option NormalizedMarketData :=
  (hyperliquidTexts rawJson).bind
    (QuoteFields.normalize .hyperliquid symbolId sendTsNs recvTsNs)

/-! ### The searches on what is left of the text -/

abbrev px : List UInt8 := ascii "px"
abbrev sz : List UInt8 := ascii "sz"

/-- The chain of searches behind `levels`, and what is read where they end. -/
def topOfBook (coin time levels : List UInt8) : Option QuoteFields :=
  (seek (quoted quote px) levels).bind fun firstPx =>
  (seek (quoted quote sz) firstPx).bind fun firstSz =>
  (seek (ascii "],[") firstSz).bind fun secondArray =>
  (seek (quoted quote px) secondArray).bind fun askPx =>
  (seek (quoted quote sz) askPx).bind fun askSz =>
  (extractJsonString firstPx px).bind fun bidPx =>
  (extractJsonString firstSz sz).bind fun bidQty =>
  (extractJsonString askPx px).bind fun askPx =>
  (extractJsonString askSz sz).bind fun askQty =>
  some { symbol := coin, sequence := time, bidPx, bidQty, askPx, askQty }

theorem hyperliquidTexts_eq (rawJson : List UInt8) :
    hyperliquidTexts rawJson =
      (seek (ascii "\"channel\":\"l2Book\"") rawJson).bind fun _ =>
      (extractJsonString rawJson (ascii "coin")).bind fun coin =>
      (extractJsonNumberAsString rawJson (ascii "time")).bind fun time =>
      (seek (quoted quote (ascii "levels")) rawJson).bind (topOfBook coin time) := by
  have channel : ∀ next : Option QuoteFields,
      ((find (ascii "\"channel\":\"l2Book\"") rawJson).bind fun _ => next) =
        (seek (ascii "\"channel\":\"l2Book\"") rawJson).bind fun _ => next := by
    intro next
    rw [← find_drop, Option.bind_map]
    exact rfl
  have levels : ∀ (next : Nat → Option QuoteFields) (next' : List UInt8 → Option QuoteFields),
      (∀ position, next position = next' (rawJson.drop position)) →
      (find (quoted quote (ascii "levels")) rawJson).bind next =
        (seek (quoted quote (ascii "levels")) rawJson).bind next' := by
    intro next next' same
    rw [← find_drop, Option.bind_map]
    exact congrArg _ (funext same)
  unfold hyperliquidTexts
  apply (channel _).trans
  congr 1
  funext _
  congr 1
  funext coin
  congr 1
  funext time
  apply levels
  intro levelsPos
  unfold topOfBook
  apply findFrom_bind
  intro firstPxPos
  apply findFrom_bind
  intro firstSzPos
  apply findFrom_bind
  intro secondArrayPos
  apply findFrom_bind
  intro askPxPos
  apply findFrom_bind
  intro askSzPos
  exact rfl

theorem topOfBook_sequence {coin time levels : List UInt8} {texts : QuoteFields}
    (extracted : topOfBook coin time levels = some texts) : texts.sequence = time := by
  simp only [topOfBook, Option.bind_eq_some_iff] at extracted
  obtain ⟨_, -, _, -, _, -, _, -, _, -, _, -, _, -, _, -, _, -, same⟩ := extracted
  rw [← Option.some.inj same]

theorem hyperliquidTexts_sequence {rawJson : List UInt8} {texts : QuoteFields}
    (extracted : hyperliquidTexts rawJson = some texts) :
    extractJsonNumberAsString rawJson (ascii "time") = some texts.sequence := by
  rw [hyperliquidTexts_eq] at extracted
  simp only [Option.bind_eq_some_iff] at extracted
  obtain ⟨_, -, _, -, time, found, _, -, top⟩ := extracted
  rw [topOfBook_sequence top]
  exact found

/-! ### The documented shape -/

abbrev opensArray : UInt8 := 91
abbrev closesArray : UInt8 := 93

/-- A numeric field behind the price and the size of a level. -/
structure LevelField where
  name : FlatJson.Plain
  value : FlatJson.Number

structure BookLevel where
  px : Numeral
  sz : Numeral
  others : List LevelField := []

/-- The parts of a book message. -/
structure L2Book where
  coin : FlatJson.Plain
  time : Nat
  bids : List BookLevel
  asks : List BookLevel

def LevelField.text (field : LevelField) : List UInt8 :=
  comma :: (quoted quote field.name.val ++ colon :: field.value.text)

namespace BookLevel

/-- What follows the size. -/
def rest (level : BookLevel) : List UInt8 := level.others.flatMap LevelField.text ++ [closing]

/-- From the key of the size on. -/
def fromSz (level : BookLevel) : List UInt8 :=
  quoted quote TradingPlatform.sz ++ colon :: (quoted quote level.sz.text ++ level.rest)

/-- From the key of the price on. -/
def fromPx (level : BookLevel) : List UInt8 :=
  quoted quote TradingPlatform.px ++ colon :: (quoted quote level.px.text ++ comma :: level.fromSz)

def text (level : BookLevel) : List UInt8 := opening :: level.fromPx

end BookLevel

/-- One side of the book, an array of levels. -/
def sideText : List BookLevel → List UInt8
  | [] => [opensArray, closesArray]
  | level :: later =>
      opensArray :: (level.text ++ (later.flatMap (fun other => comma :: other.text) ++
        [closesArray]))

namespace L2Book

/-- From the key `levels` on. -/
def fromLevels (book : L2Book) : List UInt8 :=
  quoted quote (ascii "levels") ++ colon :: opensArray ::
    (sideText book.bids ++ comma :: (sideText book.asks ++ [closesArray, closing, closing]))

def fromTime (book : L2Book) : List UInt8 :=
  quoted quote (ascii "time") ++ colon :: (render book.time ++ comma :: book.fromLevels)

def fromCoin (book : L2Book) : List UInt8 :=
  quoted quote (ascii "coin") ++ colon :: (quoted quote book.coin.val ++ comma :: book.fromTime)

def text (book : L2Book) : List UInt8 :=
  opening :: (quoted quote (ascii "channel") ++ colon :: (quoted quote (ascii "l2Book") ++
    comma :: (quoted quote (ascii "data") ++ colon :: opening :: book.fromCoin)))

end L2Book

/-! ### Searching the message -/

/-- Behind its own quoted key a string is read. -/
theorem extractJsonString_here (key contents rest : List UInt8) (clean : quote ∉ contents) :
    extractJsonString (quoted quote key ++ colon :: (quoted quote contents ++ rest)) key =
      some contents := by
  have cutColon : Delimited.cut colon (colon :: (quoted quote contents ++ rest)) =
      some ([], quoted quote contents ++ rest) := Delimited.cut_append [] _ (by simp)
  have cutQuote : Delimited.cut quote (quoted quote contents ++ rest) =
      some ([], contents ++ quote :: rest) := by
    have cut : Delimited.cut quote ([] ++ quote :: (contents ++ quote :: rest)) =
        some ([], contents ++ quote :: rest) := Delimited.cut_append [] _ (by simp)
    rw [← cut, quoted]
    simp
  rw [extractJsonString_eq, after, seek_here (List.prefix_append _ _), Option.map_some,
    List.drop_left, Option.bind_some]
  simp only [quotedAfterColon, cutColon, cutQuote, Delimited.cut_append contents rest clean,
    Option.bind_eq_bind, Option.bind_some]
  exact rfl

theorem quote_not_mem_numeral (numeral : Numeral) : quote ∉ numeral.text := by
  intro member
  exact absurd (isNumberUnit_numeral numeral quote member) (by decide)

/-- A word with another unit is no numeral. -/
theorem ne_numeral (numeral : Numeral) {word : List UInt8} (unit : UInt8) (member : unit ∈ word)
    (other : isNumberUnit unit = false) : word ≠ numeral.text := by
  rintro rfl
  rw [isNumberUnit_numeral numeral unit member] at other
  cases other

namespace BookLevel

theorem seek_sz (level : BookLevel) (rest : List UInt8) :
    seek (quoted quote TradingPlatform.sz) (level.fromPx ++ rest) =
      some (level.fromSz ++ rest) := by
  rw [fromPx, List.append_assoc, List.cons_append, List.append_assoc, List.cons_append,
    seek_token _ _ (by decide) (by decide) (by decide) (by decide) (by decide) (by decide),
    seek_token _ _ (by decide) (quote_not_mem_numeral level.px)
      (ne_numeral level.px 115 (by decide) (by decide)) (by decide) (by decide) (by decide),
    fromSz, List.append_assoc]
  exact seek_here (List.prefix_append _ _)

theorem px_read (level : BookLevel) (rest : List UInt8) :
    extractJsonString (level.fromPx ++ rest) TradingPlatform.px = some level.px.text := by
  rw [fromPx, List.append_assoc, List.cons_append, List.append_assoc]
  exact extractJsonString_here _ _ _ (quote_not_mem_numeral level.px)

theorem sz_read (level : BookLevel) (rest : List UInt8) :
    extractJsonString (level.fromSz ++ rest) TradingPlatform.sz = some level.sz.text := by
  rw [fromSz, List.append_assoc, List.cons_append, List.append_assoc]
  exact extractJsonString_here _ _ _ (quote_not_mem_numeral level.sz)

end BookLevel

theorem seek_px_side (level : BookLevel) (later : List BookLevel) (rest : List UInt8) :
    seek (quoted quote px) (sideText (level :: later) ++ rest) =
      some (level.fromPx ++ ((later.flatMap fun other => comma :: other.text) ++
        closesArray :: rest)) := by
  have unfolded : sideText (level :: later) ++ rest =
      [opensArray, opening] ++ (level.fromPx ++ ((later.flatMap fun other => comma :: other.text) ++
        closesArray :: rest)) := by
    simp [sideText, BookLevel.text]
  rw [unfolded, seek_quoted_units _ _ _ (by decide), BookLevel.fromPx, List.append_assoc]
  exact seek_here (List.prefix_append _ _)

/-! ### The end of the first array -/

abbrev betweenArrays : List UInt8 := ascii "],["

/-- The name of no numeric field holds the text between the two arrays. -/
def BookLevel.Named (level : BookLevel) : Prop :=
  ∀ field ∈ level.others, ¬ betweenArrays <:+: field.name.val

instance (level : BookLevel) : Decidable level.Named :=
  inferInstanceAs (Decidable (∀ field ∈ level.others, ¬ betweenArrays <:+: field.name.val))

theorem seek_between_units (units rest : List UInt8) (absent : closesArray ∉ units) :
    seek betweenArrays (units ++ rest) = seek betweenArrays rest :=
  seek_skip_units units rest absent

theorem LevelField.seek_between (field : LevelField) (rest : List UInt8)
    (named : ¬ betweenArrays <:+: field.name.val) :
    seek betweenArrays (field.text ++ rest) = seek betweenArrays rest := by
  have unfolded : field.text ++ rest = [comma, quote] ++ (field.name.val ++ quote ::
      (colon :: (field.value.text ++ rest))) := by
    simp [LevelField.text, quoted]
  have value : closesArray ∉ field.value.text := field.value.not_mem (by decide) (by decide)
  rw [unfolded, seek_between_units _ _ (by decide),
    seek_skip_word field.name.val _ (by decide) named]
  exact (seek_between_units [quote, colon] _ (by decide)).trans (seek_between_units _ _ value)

namespace BookLevel

theorem seek_between_rest (level : BookLevel) (rest : List UInt8) (named : level.Named) :
    seek betweenArrays (level.rest ++ rest) = seek betweenArrays rest := by
  have fields : ∀ fields : List LevelField, (∀ field ∈ fields, ¬ betweenArrays <:+: field.name.val) →
      ∀ rest, seek betweenArrays (fields.flatMap LevelField.text ++ rest) =
        seek betweenArrays rest := by
    intro fields
    induction fields with
    | nil => exact fun _ _ => rfl
    | cons field fields ih =>
        intro named rest
        rw [List.flatMap_cons, List.append_assoc,
          field.seek_between _ (named field (List.mem_cons_self ..))]
        exact ih (fun other member => named other (List.mem_cons_of_mem _ member)) rest
  rw [BookLevel.rest, List.append_assoc, fields level.others named]
  exact seek_between_units [closing] rest (by decide)

theorem closesArray_not_mem_numeral (numeral : Numeral) : closesArray ∉ quoted quote numeral.text := by
  intro member
  rcases List.mem_cons.mp member with mark | member
  · exact absurd mark (by decide)
  rcases List.mem_append.mp member with text | mark
  · exact absurd (isNumberUnit_numeral numeral _ text) (by decide)
  · exact absurd (List.mem_singleton.mp mark) (by decide)

theorem seek_between_fromSz (level : BookLevel) (rest : List UInt8) (named : level.Named) :
    seek betweenArrays (level.fromSz ++ rest) = seek betweenArrays rest := by
  have unfolded : level.fromSz ++ rest =
      (quoted quote TradingPlatform.sz ++ [colon]) ++ (quoted quote level.sz.text ++
        (level.rest ++ rest)) := by
    simp [fromSz]
  rw [unfolded, seek_between_units _ _ (by decide),
    seek_between_units _ _ (closesArray_not_mem_numeral level.sz), seek_between_rest level _ named]

theorem seek_between_text (level : BookLevel) (rest : List UInt8) (named : level.Named) :
    seek betweenArrays (level.text ++ rest) = seek betweenArrays rest := by
  have unfolded : level.text ++ rest =
      (opening :: (quoted quote TradingPlatform.px ++ [colon])) ++ (quoted quote level.px.text ++
        ([comma] ++ (level.fromSz ++ rest))) := by
    simp [text, fromPx]
  rw [unfolded, seek_between_units _ _ (by decide),
    seek_between_units _ _ (closesArray_not_mem_numeral level.px),
    seek_between_units _ _ (by decide), seek_between_fromSz level _ named]

end BookLevel

/-- From the first size on, the array ends at the first `],[`, if it is followed by another. -/
theorem seek_between_side (level : BookLevel) (later : List BookLevel) (rest : List UInt8)
    (named : ∀ other ∈ level :: later, other.Named) :
    seek betweenArrays (level.fromSz ++ ((later.flatMap fun other => comma :: other.text) ++
        closesArray :: rest)) =
      seek betweenArrays (closesArray :: rest) := by
  rw [level.seek_between_fromSz _ (named level (List.mem_cons_self ..))]
  have clean : ∀ other ∈ later, other.Named :=
    fun other member => named other (List.mem_cons_of_mem _ member)
  clear named
  induction later with
  | nil => rfl
  | cons next later ih =>
      rw [List.flatMap_cons, List.append_assoc, ← List.singleton_append, List.append_assoc,
        seek_between_units _ _ (by decide),
        next.seek_between_text _ (clean next (List.mem_cons_self ..))]
      exact ih fun other member => clean other (List.mem_cons_of_mem _ member)

/-! ### The top of the book -/

abbrev messageEnd : List UInt8 := [closesArray, closing, closing]

/-- What is read behind `levels`: the first level of either side, or nothing when
one of them is empty. -/
theorem topOfBook_sides (book : L2Book) (coin time levels : List UInt8)
    (named : ∀ level ∈ book.bids ++ book.asks, level.Named)
    (found : seek (quoted quote px) levels =
      seek (quoted quote px) (sideText book.bids ++ comma :: (sideText book.asks ++ messageEnd))) :
    topOfBook coin time levels =
      match book.bids, book.asks with
      | bid :: _, ask :: _ => some {
          symbol := coin
          sequence := time
          bidPx := bid.px.text
          bidQty := bid.sz.text
          askPx := ask.px.text
          askQty := ask.sz.text }
      | _, _ => none := by
  obtain ⟨_, _, bids, asks⟩ := book
  have asksNamed : ∀ level ∈ asks, level.Named :=
    fun level member => named level (List.mem_append_right _ member)
  have bidsNamed : ∀ level ∈ bids, level.Named :=
    fun level member => named level (List.mem_append_left _ member)
  unfold topOfBook
  rw [found]
  cases bids with
  | nil =>
      have passed : seek (quoted quote px)
            (sideText [] ++ comma :: (sideText asks ++ messageEnd)) =
          seek (quoted quote px) (sideText asks ++ messageEnd) :=
        seek_quoted_units _ [opensArray, closesArray, comma] _ (by decide)
      dsimp only
      rw [passed]
      cases asks with
      | nil => exact rfl
      | cons ask later =>
          have ends : seek betweenArrays (closesArray :: messageEnd) = none := by decide
          rw [seek_px_side, Option.bind_some, BookLevel.seek_sz, Option.bind_some,
            seek_between_side ask later _ asksNamed, ends]
          exact rfl
  | cons bid laterBids =>
      dsimp only
      have between : seek betweenArrays
            (closesArray :: comma :: (sideText asks ++ messageEnd)) =
          some (closesArray :: comma :: (sideText asks ++ messageEnd)) := by
        cases asks <;> exact seek_here (by rw [sideText]; exact ⟨_, rfl⟩)
      have passed : seek (quoted quote px) (closesArray :: comma :: (sideText asks ++ messageEnd)) =
          seek (quoted quote px) (sideText asks ++ messageEnd) :=
        seek_quoted_units _ [closesArray, comma] _ (by decide)
      rw [seek_px_side, Option.bind_some, BookLevel.seek_sz, Option.bind_some,
        seek_between_side bid laterBids _ bidsNamed, between, Option.bind_some, passed]
      cases asks with
      | nil => exact rfl
      | cons ask laterAsks =>
          rw [seek_px_side, Option.bind_some, BookLevel.seek_sz, Option.bind_some,
            BookLevel.px_read, Option.bind_some, BookLevel.sz_read, Option.bind_some,
            BookLevel.px_read, Option.bind_some, BookLevel.sz_read, Option.bind_some]

/-! ### The front of the message -/

namespace L2Book

/-- No key but `channel`, `l2Book` and `data` is found in front of `coin`. -/
theorem seek_text (book : L2Book) (key : List UInt8) (clean : quote ∉ key) (some : key ≠ [])
    (other : key ∉ [ascii "channel", ascii "l2Book", ascii "data"])
    (notColon : key.head? ≠ .some colon) (notComma : key.head? ≠ .some comma) :
    seek (quoted quote key) book.text = seek (quoted quote key) book.fromCoin := by
  simp only [List.mem_cons, List.not_mem_nil, or_false, not_or] at other
  obtain ⟨channel, l2Book, data⟩ := other
  rw [text, seek_quoted_unit _ _ _ (by decide),
    seek_token _ _ clean (by decide) channel some notColon (by decide),
    seek_token _ _ clean (by decide) l2Book some notComma (by decide),
    seek_token _ _ clean (by decide) data some notColon (by decide),
    seek_quoted_unit _ _ _ (by decide)]

theorem channel_found (book : L2Book) :
    ∃ rest, seek (ascii "\"channel\":\"l2Book\"") book.text = some rest := by
  have whole : book.text = [opening] ++ (ascii "\"channel\":\"l2Book\"" ++
      comma :: (quoted quote (ascii "data") ++ colon :: opening :: book.fromCoin)) := rfl
  obtain ⟨_, _, _, found⟩ := seek_first whole (List.prefix_append _ _)
  exact ⟨_, found⟩

theorem coin_read (book : L2Book) :
    extractJsonString book.text (ascii "coin") = some book.coin.val := by
  have here := extractJsonString_here (ascii "coin") book.coin.val (comma :: book.fromTime)
    book.coin.2.1
  rw [extractJsonString_eq, after] at here ⊢
  rw [seek_text book (ascii "coin") (by decide) (by decide) (by decide) (by decide) (by decide)]
  exact here

/-- From `coin` on, a key is found where the coin has its name, or behind. -/
theorem seek_fromCoin (book : L2Book) (key : List UInt8) (clean : quote ∉ key) (some : key ≠ [])
    (other : key ≠ ascii "coin") (notColon : key.head? ≠ .some colon)
    (notComma : key.head? ≠ .some comma) :
    seek (quoted quote key) book.fromCoin = .some (quoted quote key ++ comma :: book.fromTime) ∨
      seek (quoted quote key) book.fromCoin = seek (quoted quote key) book.fromTime := by
  rw [fromCoin, seek_token _ _ clean (by decide) other some notColon (by decide)]
  by_cases same : key = book.coin.val
  · left
    rw [← same]
    exact seek_here (List.prefix_append _ _)
  · right
    exact seek_token _ _ clean book.coin.2.1 same some notComma (by decide)

theorem quote_not_mem_time (book : L2Book) : quote ∉ render book.time :=
  fun member => absurd (render_digits _ _ member) (by decide)

/-- The time is read, even if the coin is called so. -/
theorem time_read (book : L2Book) :
    extractJsonNumberAsString book.text (ascii "time") = some (render book.time) := by
  have read : ∀ front : List UInt8, colon ∉ front →
      numberAfterColon (front ++ colon :: (render book.time ++ comma :: book.fromLevels)) =
        some (render book.time) := by
    intro front clean
    obtain ⟨unit, rest, whole⟩ := List.exists_cons_of_ne_nil (render_ne_nil book.time)
    have digits := render_digits book.time
    have solid := (digit_apart unit (digits unit (by rw [whole]; exact List.mem_cons_self ..))).1
    have units : ∀ unit ∈ render book.time, isNumberUnit unit = true := by
      intro unit member
      rw [isNumberUnit, digits unit member, Bool.true_or, Bool.true_or]
    have stops : isNumberUnit comma = false := by decide
    have taken : (render book.time ++ comma :: book.fromLevels).takeWhile isNumberUnit =
        render book.time := by
      rw [List.takeWhile_append_of_pos units,
        List.takeWhile_cons_of_neg (by rw [stops]; exact Bool.false_ne_true), List.append_nil]
    have kept : (render book.time ++ comma :: book.fromLevels).dropWhile isSpace =
        render book.time ++ comma :: book.fromLevels := by
      rw [whole, List.cons_append,
        List.dropWhile_cons_of_neg (by rw [solid]; exact Bool.false_ne_true)]
    simp only [numberAfterColon, Delimited.cut_append front _ clean, Option.bind_eq_bind,
      Option.bind_some, kept, taken, render_ne_nil, ↓reduceIte]
  rw [extractJsonNumberAsString_eq, after,
    seek_text book (ascii "time") (by decide) (by decide) (by decide) (by decide) (by decide)]
  rcases seek_fromCoin book (ascii "time") (by decide) (by decide) (by decide) (by decide)
    (by decide) with hidden | passed
  · rw [hidden, Option.map_some, List.drop_left, Option.bind_some, fromTime]
    exact read (comma :: quoted quote (ascii "time")) (by decide)
  · rw [passed, fromTime, seek_here (List.prefix_append _ _), Option.map_some, List.drop_left,
      Option.bind_some]
    exact read [] (by simp)

/-- Whatever the coin is called, the search for prices starts in front of the
first side and behind every other key. -/
theorem levels_found (book : L2Book) :
    ∃ levels, seek (quoted quote (ascii "levels")) book.text = some levels ∧
      seek (quoted quote px) levels =
        seek (quoted quote px)
          (sideText book.bids ++ comma :: (sideText book.asks ++ messageEnd)) := by
  have sides : seek (quoted quote px) book.fromLevels =
      seek (quoted quote px)
        (sideText book.bids ++ comma :: (sideText book.asks ++ messageEnd)) := by
    rw [fromLevels,
      seek_token _ _ (by decide) (by decide) (by decide) (by decide) (by decide) (by decide),
      seek_quoted_unit _ _ _ (by decide)]
  have behindTime : ∀ key : List UInt8, quote ∉ key → key ≠ [] → key ≠ ascii "time" →
      key.head? ≠ some colon →
      seek (quoted quote key) book.fromTime = seek (quoted quote key) book.fromLevels := by
    intro key clean some other apart
    rw [fromTime, seek_token _ _ clean (by decide) other some apart (by decide),
      seek_quoted_units _ _ _ book.quote_not_mem_time, seek_quoted_unit _ _ _ (by decide)]
  rw [seek_text book (ascii "levels") (by decide) (by decide) (by decide) (by decide) (by decide)]
  rcases seek_fromCoin book (ascii "levels") (by decide) (by decide) (by decide) (by decide)
    (by decide) with hidden | passed
  · refine ⟨_, hidden, ?_⟩
    rw [seek_token _ _ (by decide) (by decide) (by decide) (by decide) (by decide) (by decide),
      behindTime px (by decide) (by decide) (by decide) (by decide), sides]
  · refine ⟨book.fromLevels, ?_, sides⟩
    rw [passed, behindTime _ (by decide) (by decide) (by decide) (by decide), fromLevels]
    exact seek_here (List.prefix_append _ _)

end L2Book

/-- What the message says: both sides have a level, and the time fits its type. -/
def L2Book.update (book : L2Book) (symbolId : SymbolId) (sendTsNs recvTsNs : TimestampNs) :
    Option NormalizedMarketData :=
  match book.bids, book.asks with
  | bid :: _, ask :: _ =>
      if book.time < 2 ^ 64 then
        some {
          venue := .hyperliquid
          update := makeUpdate .hyperliquid symbolId book.coin.val
            (parsePriceToTicks bid.px.text) (parseQuantityToUnits bid.sz.text)
            (parsePriceToTicks ask.px.text) (parseQuantityToUnits ask.sz.text)
            book.time sendTsNs recvTsNs }
      else none
  | _, _ => none

/-- A message of the documented shape, with sides of any length, is read as what
it says, unless the name of a numeric field holds `],[`. -/
theorem normalizeHyperliquidL2Book_shape (book : L2Book) (symbolId : SymbolId)
    (sendTsNs recvTsNs : TimestampNs) (named : ∀ level ∈ book.bids ++ book.asks, level.Named) :
    normalizeHyperliquidL2Book book.text symbolId sendTsNs recvTsNs =
      book.update symbolId sendTsNs recvTsNs := by
  obtain ⟨_, channel⟩ := book.channel_found
  obtain ⟨levels, found, sides⟩ := book.levels_found
  rw [normalizeHyperliquidL2Book, hyperliquidTexts_eq, channel, Option.bind_some, book.coin_read,
    Option.bind_some, book.time_read, Option.bind_some, found, Option.bind_some,
    topOfBook_sides book _ _ _ named sides]
  unfold L2Book.update
  cases book.bids with
  | nil => exact rfl
  | cons bid laterBids =>
      cases book.asks with
      | nil => exact rfl
      | cons ask laterAsks =>
          have sequence : parseSequence (render book.time) =
              if book.time < 2 ^ 64 then some book.time else none := fromChars_render _ _
          dsimp only
          rw [Option.bind_some, QuoteFields.normalize]
          dsimp only
          rw [sequence]
          split
          · exact rfl
          · exact rfl

/-- A level whose price and size are digits, with numeric fields of these names. -/
def plainLevel (px sz : List UInt8) (names : List FlatJson.Plain) (pxSome : px ≠ [])
    (szSome : sz ≠ []) (pxDigits : Digits px) (szDigits : Digits sz) : BookLevel where
  px := .integer px pxSome pxDigits
  sz := .integer sz szSome szDigits
  others := names.map fun name =>
    { name := name, value := ⟨.integer (ascii "3") (by decide) (by decide), none⟩ }

/-- The coin has the name of the key in front of the sides. -/
def ordersBook : L2Book where
  coin := ⟨ascii "levels", by decide⟩
  time := 1722
  bids := [
    plainLevel (ascii "64250") (ascii "2") [⟨ascii "n", by decide⟩] (by decide) (by decide)
      (by decide) (by decide),
    plainLevel (ascii "64249") (ascii "7") [⟨ascii "n", by decide⟩] (by decide) (by decide)
      (by decide) (by decide)]
  asks := [
    plainLevel (ascii "64251") (ascii "4") [⟨ascii "n", by decide⟩] (by decide) (by decide)
      (by decide) (by decide)]

theorem normalizeHyperliquidL2Book_ordersBook :
    normalizeHyperliquidL2Book ordersBook.text 1 0 0 =
      some {
        venue := .hyperliquid
        update := makeUpdate .hyperliquid 1 (ascii "levels") 6425000 2000000 6425100 4000000 1722
          0 0 } :=
  (normalizeHyperliquidL2Book_shape ordersBook 1 0 0 (by decide +kernel)).trans (by decide +kernel)

/-- The first bid has a field called `],[`. -/
def namedBook : L2Book where
  coin := ⟨ascii "BTC", by decide⟩
  time := 1722
  bids := [
    plainLevel (ascii "10") (ascii "2") [⟨ascii "],[", by decide⟩] (by decide) (by decide)
      (by decide) (by decide),
    plainLevel (ascii "30") (ascii "4") [] (by decide) (by decide) (by decide) (by decide)]
  asks := [plainLevel (ascii "50") (ascii "6") [] (by decide) (by decide) (by decide) (by decide)]

/-- The ask of such a message is its second bid. -/
theorem second_bid_read_as_ask :
    namedBook.text = ascii ("\x7b\"channel\":\"l2Book\",\"data\":\x7b\"coin\":\"BTC\",\"time\":1722," ++
      "\"levels\":[[\x7b\"px\":\"10\",\"sz\":\"2\",\"],[\":3\x7d,\x7b\"px\":\"30\",\"sz\":\"4\"\x7d]," ++
      "[\x7b\"px\":\"50\",\"sz\":\"6\"\x7d]]\x7d\x7d") ∧
    normalizeHyperliquidL2Book namedBook.text 1 0 0 =
      some {
        venue := .hyperliquid
        update := makeUpdate .hyperliquid 1 (ascii "BTC") 1000 2000000 3000 4000000 1722 0 0 } ∧
    namedBook.update 1 0 0 =
      some {
        venue := .hyperliquid
        update := makeUpdate .hyperliquid 1 (ascii "BTC") 1000 2000000 5000 6000000 1722 0 0 } := by
  refine ⟨?_, ?_, ?_⟩ <;> decide +kernel

end TradingPlatform
