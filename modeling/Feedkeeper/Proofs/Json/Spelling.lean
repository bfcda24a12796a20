import Feedkeeper.Proofs.Json.Text
import Mathlib.Data.List.Chain

/-!
# How tokens are spelled

A character of a string stands as itself or as an escape, the exponent of a numeral has several
spellings, and blanks may stand before and behind each token (`Token.Laid`). A text is cut into
tokens if it is a text of them, and the tokens keep apart : where a numeral or a word ends, no other
one begins (`Token.scan?_of_laid`). Whatever is cut into tokens is a text of them
(`Token.laid_of_scan?`). One direction follows the grammar, the other the machine, of which
`Mode.Read` says what it has read of the token that it is in the middle of.
-/

namespace Feedkeeper.Json

/-! ## Quoted text -/

namespace Quoted

/-- The number that hexadecimal digits stand for, if they are ones. -/
def hex? (digits : List Char) : Option Nat :=
  digits.foldlM (fun value c => (hexValue? c).map (16 * value + ·)) 0

/-- How a part of a string stands between the quotes. -/
inductive Piece.SpelledAs : Piece → List Char → Prop
  | raw {c : Char} (quote : c ≠ '"') (backslash : c ≠ '\\') (printed : 0x20 ≤ c.toNat) :
    SpelledAs (.char c) [c]
  | short {mark c : Char} (known : shortEscape? mark = some c) : SpelledAs (.char c) ['\\', mark]
  | unit {digits : List Char} {value : Nat} (four : digits.length = 4)
    (known : hex? digits = some value) : SpelledAs (.ofUnit value) ('\\' :: 'u' :: digits)

/-- How a string stands between the quotes. -/
inductive SpelledAs : List Piece → List Char → Prop
  | nil : SpelledAs [] []
  | cons {piece : Piece} {pieces : List Piece} {chars rest : List Char}
    (first : piece.SpelledAs chars) (others : SpelledAs pieces rest) :
    SpelledAs (piece :: pieces) (chars ++ rest)

theorem SpelledAs.snoc {pieces : List Piece} {piece : Piece} {chars more : List Char}
    (spelled : SpelledAs pieces chars) (last : piece.SpelledAs more) :
    SpelledAs (pieces ++ [piece]) (chars ++ more) := by
  induction spelled with
  | nil => simpa using SpelledAs.cons last .nil
  | cons first _ ih =>
    rw [List.append_assoc]
    exact .cons first ih

end Quoted

/-! ## Numerals -/

namespace Numeral

/-- At least one digit, and nothing else. -/
def Run (digits : List Char) : Prop :=
  digits ≠ [] ∧ ∀ c ∈ digits, Digits.isDigit c = true

/-- How an exponent is spelled, if there is one. -/
inductive ExponentAs : Option (Bool × List Char) → List Char → Prop
  | absent : ExponentAs none []
  | unsigned {mark : Char} {digits : List Char} (known : mark = 'e' ∨ mark = 'E')
    (run : Run digits) : ExponentAs (some (false, digits)) (mark :: digits)
  | plus {mark : Char} {digits : List Char} (known : mark = 'e' ∨ mark = 'E')
    (run : Run digits) : ExponentAs (some (false, digits)) (mark :: '+' :: digits)
  | minus {mark : Char} {digits : List Char} (known : mark = 'e' ∨ mark = 'E')
    (run : Run digits) : ExponentAs (some (true, digits)) (mark :: '-' :: digits)

/-- The sign of a numeral. -/
def sign (negative : Bool) : List Char :=
  if negative then ['-'] else []

/-- How a numeral is spelled. -/
structure SpelledAs (numeral : Numeral) (chars : List Char) : Prop where
  whole : Run numeral.whole
  lead : numeral.whole.head? = some '0' → numeral.whole.length = 1
  fraction : ∀ digits, numeral.fraction = some digits → Run digits
  spelled : ∃ exponent, ExponentAs numeral.exponent exponent ∧
    chars = sign numeral.negative ++ numeral.whole ++ fractionText numeral.fraction ++ exponent

variable {chars rest digits : List Char} {numeral : Numeral}

/-- What follows a run of digits does not go it on. -/
def Stops (rest : List Char) : Prop :=
  ∀ c ∈ rest.head?, Digits.isDigit c = false

theorem Run.takeWhile_append (run : Run digits) (stops : Stops rest) :
    (digits ++ rest).takeWhile Digits.isDigit = digits := by
  have nothing : rest.takeWhile Digits.isDigit = [] := by
    cases rest with
    | nil => rfl
    | cons c rest => simp [stops c rfl]
  rw [List.takeWhile_append_of_pos run.2, nothing, List.append_nil]

theorem Run.dropWhile_append (run : Run digits) (stops : Stops rest) :
    (digits ++ rest).dropWhile Digits.isDigit = rest := by
  have all : rest.dropWhile Digits.isDigit = rest := by
    cases rest with
    | nil => rfl
    | cons c rest => simp [stops c rfl]
  rw [List.dropWhile_append_of_pos run.2, all]

/-- The digits that a text begins with are a run, if there are any. -/
theorem run_takeWhile (h : chars.takeWhile Digits.isDigit ≠ []) :
    Run (chars.takeWhile Digits.isDigit) :=
  ⟨h, fun _ mem => List.mem_takeWhile_imp mem⟩

/-- A run begins with a digit. -/
theorem Run.exists_cons (run : Run digits) :
    ∃ c rest, digits = c :: rest ∧ Digits.isDigit c = true :=
  match digits, run with
  | c :: rest, run => ⟨c, rest, rfl, run.2 c List.mem_cons_self⟩

theorem ne_of_isDigit {c d : Char} (digit : Digits.isDigit c = true)
    (other : Digits.isDigit d = false) : c ≠ d := by
  rintro rfl
  simp [digit] at other

/-! ### The parts of a numeral -/

theorem parseExponent?_eq_some_iff {exponent : Option (Bool × List Char)} :
    parseExponent? chars = some exponent ↔ ExponentAs exponent chars := by
  constructor
  · intro h
    unfold parseExponent? at h
    split at h
    · obtain rfl := Option.some.inj h
      exact .absent
    split at h
    · rename_i known
      split at h
      rename_i signed
      split at h
      · rename_i run
        obtain rfl := Option.some.inj h
        replace run := And.imp_right List.all_eq_true.1 run
        split at signed
        all_goals obtain ⟨rfl, rfl⟩ := Prod.mk.inj signed
        · exact .minus known run
        · exact .plus known run
        · exact .unsigned known run
      · cases h
    · cases h
  · have all {digits : List Char} (run : Run digits) : digits.all Digits.isDigit = true :=
      List.all_eq_true.2 run.2
    rintro (_ | ⟨known, run⟩ | ⟨known, run⟩ | ⟨known, run⟩)
    · rfl
    · have every := all run
      obtain ⟨c, rest, rfl, digit⟩ := run.exists_cons
      have minus : c ≠ '-' := ne_of_isDigit digit (by decide)
      have plus : c ≠ '+' := ne_of_isDigit digit (by decide)
      simp [parseExponent?, known, minus, plus, every]
    · simp [parseExponent?, known, run.1, all run]
    · simp [parseExponent?, known, run.1, all run]

theorem parseFraction?_append {fraction : Option (List Char)}
    (run : ∀ digits, fraction = some digits → Run digits) (stops : Stops rest)
    (point : rest.head? ≠ some '.') :
    parseFraction? (fractionText fraction ++ rest) = some (fraction, rest) := by
  cases fraction with
  | none =>
    rw [fractionText, List.nil_append]
    unfold parseFraction?
    split
    · exact absurd rfl point
    · rfl
  | some digits =>
    have run := run digits rfl
    simp [fractionText, parseFraction?, run.takeWhile_append stops, run.dropWhile_append stops,
      run.1]

theorem parseFraction?_eq_some {fraction : Option (List Char)}
    (h : parseFraction? chars = some (fraction, rest)) :
    chars = fractionText fraction ++ rest ∧ ∀ digits, fraction = some digits → Run digits := by
  unfold parseFraction? at h
  split at h
  · simp only at h
    split at h
    · cases h
    · rename_i digits
      obtain ⟨rfl, rfl⟩ := Prod.mk.inj (Option.some.inj h)
      refine ⟨by simp [fractionText], fun _ same => ?_⟩
      obtain rfl := Option.some.inj same
      exact run_takeWhile digits
  · obtain ⟨rfl, rfl⟩ := Prod.mk.inj (Option.some.inj h)
    exact ⟨rfl, fun _ same => absurd same (Option.some_ne_none _).symm⟩

/-! ### Whole numerals -/

/-- An exponent begins with its mark. -/
theorem ExponentAs.head {exponent : Option (Bool × List Char)}
    (spelled : ExponentAs exponent rest) : Stops rest ∧ rest.head? ≠ some '.' := by
  rcases spelled with _ | ⟨rfl | rfl, -⟩ | ⟨rfl | rfl, -⟩ | ⟨rfl | rfl, -⟩ <;> simp [Stops] <;>
    decide

theorem stops_fractionText (fraction : Option (List Char)) (stops : Stops rest) :
    Stops (fractionText fraction ++ rest) := by
  cases fraction with
  | none => exact stops
  | some digits =>
    rintro c ⟨⟩
    decide

/-- Reads what is behind the sign of a numeral. -/
def parseUnsigned? (negative : Bool) (chars : List Char) : Option Numeral :=
  let whole := chars.takeWhile Digits.isDigit
  if whole = [] ∨ (whole.head? = some '0' ∧ whole.length ≠ 1) then none
  else (parseFraction? (chars.dropWhile Digits.isDigit)).bind fun found =>
    (parseExponent? found.2).bind fun exponent =>
      some { negative, whole, fraction := found.1, exponent }

theorem parse?_sign (negative : Bool) (unsigned : negative = false → chars.head? ≠ some '-') :
    parse? (sign negative ++ chars) = parseUnsigned? negative chars := by
  cases negative with
  | true => rfl
  | false =>
    change parse? chars = _
    unfold parse?
    simp only
    split
    · exact absurd rfl (unsigned rfl)
    · rfl

/-- A text is a sign and what is behind it. -/
theorem exists_sign (chars : List Char) : ∃ negative unsigned, chars = sign negative ++ unsigned ∧
    (negative = false → unsigned.head? ≠ some '-') := by
  by_cases minus : chars.head? = some '-'
  · obtain ⟨rest, rfl⟩ := List.head?_eq_some_iff.1 minus
    exact ⟨true, rest, rfl, nofun⟩
  · exact ⟨false, chars, rfl, fun _ => minus⟩

/-- Numerals are read from their spellings, and from nothing else. -/
theorem parse?_eq_some_iff : parse? chars = some numeral ↔ numeral.SpelledAs chars := by
  constructor
  · intro h
    obtain ⟨negative, unsigned, rfl, other⟩ := exists_sign chars
    rw [parse?_sign negative other, parseUnsigned?] at h
    split at h
    · cases h
    rename_i lead
    obtain ⟨⟨fraction, rest⟩, found, h⟩ := Option.bind_eq_some_iff.1 h
    obtain ⟨exponent, parsed, h⟩ := Option.bind_eq_some_iff.1 h
    obtain rfl := Option.some.inj h
    obtain ⟨behind, run⟩ := parseFraction?_eq_some found
    refine ⟨run_takeWhile fun none => lead (Or.inl none), fun zero => ?_, run, rest,
      parseExponent?_eq_some_iff.1 parsed, ?_⟩
    · by_contra long
      exact lead (Or.inr ⟨zero, long⟩)
    · simp only [List.append_assoc]
      rw [← behind, List.takeWhile_append_dropWhile]
  · obtain ⟨negative, whole, fraction, exponent⟩ := numeral
    rintro ⟨run, lead, fractions, rest, spelled, rfl⟩
    dsimp only at run lead fractions spelled ⊢
    obtain ⟨stops, point⟩ := spelled.head
    have behind := stops_fractionText fraction stops
    have lead : ¬(whole = [] ∨ whole.head? = some '0' ∧ whole.length ≠ 1) := by
      rintro (nothing | ⟨zero, long⟩)
      · exact run.1 nothing
      · exact long (lead zero)
    have unsigned : (whole ++ (fractionText fraction ++ rest)).head? ≠ some '-' := by
      obtain ⟨c, digits, rfl, digit⟩ := run.exists_cons
      simpa using ne_of_isDigit digit (by decide)
    rw [List.append_assoc, List.append_assoc, parse?_sign negative fun _ => unsigned,
      parseUnsigned?]
    simp only [run.takeWhile_append behind, run.dropWhile_append behind, if_neg lead,
      parseFraction?_append fractions stops point, parseExponent?_eq_some_iff.2 spelled,
      Option.bind_some]

/-- A numeral begins with a minus or a digit. -/
theorem SpelledAs.exists_cons (spelled : numeral.SpelledAs chars) :
    ∃ c rest, chars = c :: rest ∧ (c = '-' ∨ Digits.isDigit c = true) := by
  obtain ⟨exponent, -, rfl⟩ := spelled.spelled
  obtain ⟨c, rest, whole, digit⟩ := spelled.whole.exists_cons
  rw [whole]
  cases numeral.negative with
  | true => exact ⟨'-', _, rfl, Or.inl rfl⟩
  | false => exact ⟨c, _, rfl, Or.inr digit⟩

theorem Run.isNumeralChar (run : Run digits) : ∀ c ∈ digits, Token.isNumeralChar c = true :=
  fun c mem => by simp [Token.isNumeralChar, run.2 c mem]

theorem ExponentAs.isNumeralChar {exponent : Option (Bool × List Char)}
    (spelled : ExponentAs exponent chars) : ∀ c ∈ chars, Token.isNumeralChar c = true := by
  have marked {mark : Char} (known : mark = 'e' ∨ mark = 'E') :
      Token.isNumeralChar mark = true := by
    rcases known with rfl | rfl <;> decide
  rcases spelled with _ | ⟨known, run⟩ | ⟨known, run⟩ | ⟨known, run⟩
  · exact nofun
  · exact List.forall_mem_cons.2 ⟨marked known, run.isNumeralChar⟩
  · exact List.forall_mem_cons.2 ⟨marked known, List.forall_mem_cons.2
      ⟨by decide, run.isNumeralChar⟩⟩
  · exact List.forall_mem_cons.2 ⟨marked known, List.forall_mem_cons.2
      ⟨by decide, run.isNumeralChar⟩⟩

/-- A numeral has only characters of numerals. -/
theorem SpelledAs.isNumeralChar (spelled : numeral.SpelledAs chars) :
    ∀ c ∈ chars, Token.isNumeralChar c = true := by
  obtain ⟨exponent, behind, rfl⟩ := spelled.spelled
  have signs : ∀ c ∈ sign numeral.negative, Token.isNumeralChar c = true := by
    cases numeral.negative with
    | true => exact List.forall_mem_cons.2 ⟨by decide, nofun⟩
    | false => exact nofun
  have fraction : ∀ c ∈ fractionText numeral.fraction, Token.isNumeralChar c = true := by
    cases digits : numeral.fraction with
    | none => exact nofun
    | some digits =>
      exact List.forall_mem_cons.2 ⟨by decide, (spelled.fraction _ ‹_›).isNumeralChar⟩
  simp only [List.forall_mem_append]
  exact ⟨⟨⟨signs, spelled.whole.isNumeralChar⟩, fraction⟩, behind.isNumeralChar⟩

end Numeral

/-! ## Tokens -/

namespace Token

/-- How a token is spelled. -/
def SpelledAs : Token → List Char → Prop
  | number numeral, chars => numeral.SpelledAs chars
  | string text, chars => ∃ pieces inner, Quoted.SpelledAs pieces inner ∧
    text = (Quoted.assemble pieces).map String.ofList ∧ chars = '"' :: inner ++ ['"']
  | token, chars => chars = token.text

/-- The characters spell the tokens in order, with blanks before, between and behind them. -/
inductive Laid : List Token → List Char → Prop
  | nil : Laid [] []
  | blank {c : Char} {tokens : List Token} {rest : List Char} (blank : isBlank c = true)
    (others : Laid tokens rest) : Laid tokens (c :: rest)
  | token {token : Token} {chars : List Char} {tokens : List Token} {rest : List Char}
    (spelled : token.SpelledAs chars) (others : Laid tokens rest) :
    Laid (token :: tokens) (chars ++ rest)

/-- No numeral or word is next to another one. -/
def Apart (tokens : List Token) : Prop :=
  tokens.IsChain fun first second => first.IsOpen → ¬second.IsOpen

variable {pieces : List Quoted.Piece} {done tokens : List Token} {token : Token}
  {chars rest : List Char}

/-! ### From the spelling to the token -/

/-- The digits of an escape are taken in one by one. -/
theorem scanFrom?_hex {digits : List Char} {value unit : Nat} (some? : digits ≠ [])
    (known : digits.foldlM (fun value c => (Quoted.hexValue? c).map (16 * value + ·)) value =
      some unit) :
    scanFrom? (.hex pieces digits.length value) done (digits ++ rest) =
      scanFrom? (.string (.ofUnit unit :: pieces)) done rest := by
  induction digits generalizing value with
  | nil => exact absurd rfl some?
  | cons c digits ih =>
    rw [List.foldlM_cons] at known
    obtain ⟨next, taken, known⟩ := Option.bind_eq_some_iff.1 known
    obtain ⟨digit, read, rfl⟩ := Option.map_eq_some_iff.1 taken
    cases digits with
    | nil =>
      obtain rfl := Option.some.inj known
      simp [scanFrom?, step?, read]
    | cons d digits =>
      rw [← ih (by simp) known, List.cons_append, scanFrom?, step?, read]
      simp

theorem scanFrom?_piece {piece : Quoted.Piece} (spelled : piece.SpelledAs chars) :
    scanFrom? (.string pieces) done (chars ++ rest) =
      scanFrom? (.string (piece :: pieces)) done rest := by
  cases spelled with
  | raw quote backslash printed =>
    simp [scanFrom?, step?, quote, backslash, Nat.not_lt.2 printed]
  | @short mark c known =>
    have other : mark ≠ 'u' := by
      rintro rfl
      cases known
    simp [scanFrom?, step?, other, known]
  | @unit digits value four known =>
    have some? : digits ≠ [] := by
      rintro rfl
      cases four
    have escape : scanFrom? (.string pieces) done ('\\' :: 'u' :: (digits ++ rest)) =
        scanFrom? (.hex pieces digits.length 0) done (digits ++ rest) := by
      rw [four]
      rfl
    exact escape.trans (scanFrom?_hex some? known)

theorem scanFrom?_pieces {more : List Quoted.Piece} (spelled : Quoted.SpelledAs more chars) :
    scanFrom? (.string pieces) done (chars ++ rest) =
      scanFrom? (.string (more.reverse ++ pieces)) done rest := by
  induction spelled generalizing pieces with
  | nil => rfl
  | cons first _ ih =>
    rw [List.append_assoc, scanFrom?_piece first, ih]
    simp

theorem scanFrom?_numeralChars {taken : List Char} (all : ∀ c ∈ chars, isNumeralChar c = true) :
    scanFrom? (.numeral taken) done (chars ++ rest) =
      scanFrom? (.numeral (chars.reverse ++ taken)) done rest := by
  induction chars generalizing taken with
  | nil => rfl
  | cons c chars ih =>
    obtain ⟨first, others⟩ := List.forall_mem_cons.1 all
    simp [scanFrom?, step?, first, ih others]

/-- A token is cut off where it ends, however it is spelled. -/
theorem scanFrom?_spelled (spelled : token.SpelledAs chars) (ended : token.IsOpen → Ended rest) :
    scanFrom? .between done (chars ++ rest) = scanFrom? .between (token :: done) rest := by
  cases token with
  | openBrace | closeBrace | openBracket | closeBracket | colon | comma | null | bool value =>
    rw [show chars = _ from spelled]
    exact scanFrom?_text _ trivial ended
  | number numeral =>
    have spelled : numeral.SpelledAs chars := spelled
    have parsed := Numeral.parse?_eq_some_iff.2 spelled
    have all := spelled.isNumeralChar
    obtain ⟨c, more, rfl, first⟩ := spelled.exists_cons
    have begun : scanFrom? .between done (c :: more ++ rest) =
        scanFrom? (.numeral [c]) done (more ++ rest) := by
      rw [List.cons_append, scanFrom?, step?, start?_of_digit first]
      rfl
    rw [begun, scanFrom?_numeralChars (List.forall_mem_cons.1 all).2,
      scanFrom?_ended_numeral (ended trivial) (by simpa using parsed)]
  | string text =>
    obtain ⟨pieces, inner, spelled, rfl, rfl⟩ := spelled
    have opened : scanFrom? .between done ('"' :: inner ++ ['"'] ++ rest) =
        scanFrom? (.string []) done (inner ++ '"' :: rest) := by
      rw [List.append_assoc]
      rfl
    have closed : scanFrom? (.string (pieces.reverse ++ [])) done ('"' :: rest) =
        scanFrom? .between (ofPieces (pieces.reverse ++ []) :: done) rest := rfl
    rw [opened, scanFrom?_pieces spelled, closed, ofPieces, List.append_nil, List.reverse_reverse]

/-- What stands behind a token does not go it on, unless it is the next numeral or word. -/
theorem Laid.ended (laid : Laid tokens chars) (closed : ∀ token ∈ tokens.head?, ¬token.IsOpen) :
    Ended chars := by
  cases laid with
  | nil => exact nofun
  | blank blank _ =>
    rintro c ⟨⟩
    simp only [isBlank, Bool.or_eq_true, decide_eq_true_eq] at blank
    rcases blank with ((rfl | rfl) | rfl) | rfl <;> decide
  | @token token chars _ _ spelled _ =>
    have closed : ¬token.IsOpen := closed token rfl
    cases token with
    | null | bool | number => exact absurd trivial closed
    | openBrace | closeBrace | openBracket | closeBracket | colon | comma =>
      obtain rfl : chars = _ := spelled
      rintro c ⟨⟩
      decide
    | string text =>
      obtain ⟨pieces, inner, -, -, rfl⟩ := spelled
      rintro c ⟨⟩
      decide

theorem scanFrom?_of_laid (laid : Laid tokens chars) (apart : Apart tokens) :
    scanFrom? .between done chars = some (done.reverse ++ tokens) := by
  induction laid generalizing done with
  | nil => rfl
  | blank blank _ ih =>
    rw [← ih apart, scanFrom?, step?, start?, if_pos blank]
    rfl
  | token spelled others ih =>
    obtain ⟨next, apart⟩ := List.isChain_cons.1 apart
    rw [scanFrom?_spelled spelled fun isOpen => others.ended fun token mem => next token mem isOpen,
      ih apart]
    simp

/-- A text of tokens that keep apart is cut into them. -/
theorem scan?_of_laid (laid : Laid tokens chars) (apart : Apart tokens) :
    scan? chars = some tokens :=
  scanFrom?_of_laid laid apart

/-! ### From the token to the spelling -/

/-- What the machine has read of the token that it is in the middle of. -/
def Mode.Read : Mode → List Char → Prop
  | .between, chars => chars = []
  | .string pieces, chars => ∃ inner, Quoted.SpelledAs pieces.reverse inner ∧ chars = '"' :: inner
  | .escape pieces, chars =>
    ∃ inner, Quoted.SpelledAs pieces.reverse inner ∧ chars = '"' :: inner ++ ['\\']
  | .hex pieces missing value, chars =>
    ∃ inner digits, Quoted.SpelledAs pieces.reverse inner ∧ Quoted.hex? digits = some value ∧
      digits.length + missing = 4 ∧ 0 < missing ∧ chars = '"' :: inner ++ '\\' :: 'u' :: digits
  | .numeral read, chars | .word read, chars => chars = read.reverse

/-- The characters are a text of the tokens, whatever text of others follows. -/
def Cuts (tokens : List Token) (chars : List Char) : Prop :=
  ∀ others rest, Laid others rest → Laid (tokens ++ others) (chars ++ rest)

theorem Cuts.nil : Cuts [] [] :=
  fun _ _ laid => laid

theorem Cuts.single (spelled : token.SpelledAs chars) : Cuts [token] chars :=
  fun _ _ laid => .token spelled laid

theorem Cuts.append {more : List Token} (first : Cuts tokens chars) (second : Cuts more rest) :
    Cuts (tokens ++ more) (chars ++ rest) := by
  intro others tail laid
  rw [List.append_assoc, List.append_assoc]
  exact first _ _ (second _ _ laid)

/-- The characters are cut into the tokens, up to what the machine is in the middle of. -/
def Splits (chars : List Char) (tokens : List Token) (mode : Mode) : Prop :=
  ∃ front pending, chars = front ++ pending ∧ Cuts tokens front ∧ mode.Read pending

theorem splits_start? {c : Char} {mode : Mode} (h : start? c = some (tokens, mode)) :
    Splits [c] tokens mode := by
  unfold start? at h
  split at h
  · rename_i blank
    obtain ⟨rfl, rfl⟩ := Prod.mk.inj (Option.some.inj h)
    exact ⟨[c], [], rfl, fun _ _ laid => .blank blank laid, rfl⟩
  iterate 6
    split at h
    · rename_i same
      subst same
      obtain ⟨rfl, rfl⟩ := Prod.mk.inj (Option.some.inj h)
      exact ⟨_, [], rfl, .single rfl, rfl⟩
  split at h
  · rename_i same
    subst same
    obtain ⟨rfl, rfl⟩ := Prod.mk.inj (Option.some.inj h)
    exact ⟨[], ['"'], rfl, .nil, [], .nil, rfl⟩
  split at h
  · obtain ⟨rfl, rfl⟩ := Prod.mk.inj (Option.some.inj h)
    exact ⟨[], [c], rfl, .nil, rfl⟩
  split at h
  · obtain ⟨rfl, rfl⟩ := Prod.mk.inj (Option.some.inj h)
    exact ⟨[], [c], rfl, .nil, rfl⟩
  · cases h

/-- The end of a text completes only a token that was read in full. -/
theorem cuts_of_finish? {mode : Mode} (h : finish? mode = some tokens) (read : mode.Read chars) :
    Cuts tokens chars := by
  cases mode with
  | between =>
    obtain rfl := Option.some.inj h
    obtain rfl : chars = [] := read
    exact .nil
  | string | escape | hex => cases h
  | numeral taken =>
    obtain ⟨numeral, parsed, rfl⟩ := Option.map_eq_some_iff.1 h
    obtain rfl : chars = _ := read
    exact .single (Numeral.parse?_eq_some_iff.1 parsed)
  | word taken =>
    obtain ⟨token, known, rfl⟩ := Option.map_eq_some_iff.1 h
    obtain rfl : chars = _ := read
    refine .single ?_
    unfold ofWord? at known
    iterate 3
      split at known
      · rename_i same
        rw [same]
        obtain rfl := Option.some.inj known
        rfl
    · cases known

/-- A character that does not go on a token ends it, and is then looked at afresh. -/
theorem splits_ended {mode next : Mode} {c : Char} {ended : List Token}
    (finished : finish? mode = some ended) (started : start? c = some (tokens, next))
    (read : mode.Read chars) : Splits (chars ++ [c]) (ended ++ tokens) next := by
  obtain ⟨front, pending, same, cuts, reads⟩ := splits_start? started
  exact ⟨chars ++ front, pending, by rw [same, List.append_assoc],
    (cuts_of_finish? finished read).append cuts, reads⟩

theorem splits_step? {mode next : Mode} {c : Char} (h : step? mode c = some (tokens, next))
    (read : mode.Read chars) : Splits (chars ++ [c]) tokens next := by
  cases mode with
  | between =>
    obtain rfl : chars = [] := read
    exact splits_start? h
  | string pieces =>
    obtain ⟨inner, spelled, rfl⟩ := read
    rw [step?] at h
    split at h
    · rename_i quote
      obtain ⟨rfl, rfl⟩ := Prod.mk.inj (Option.some.inj h)
      exact ⟨_, [], (List.append_nil _).symm, .single ⟨_, inner, spelled, rfl, by rw [quote]⟩, rfl⟩
    rename_i quote
    split at h
    · rename_i backslash
      obtain ⟨rfl, rfl⟩ := Prod.mk.inj (Option.some.inj h)
      exact ⟨[], _, rfl, .nil, inner, spelled, by simp [backslash]⟩
    rename_i backslash
    split at h
    · cases h
    · rename_i printed
      obtain ⟨rfl, rfl⟩ := Prod.mk.inj (Option.some.inj h)
      refine ⟨[], _, rfl, .nil, inner ++ [c], ?_, rfl⟩
      rw [List.reverse_cons]
      exact spelled.snoc (.raw quote backslash (Nat.not_lt.1 printed))
  | escape pieces =>
    obtain ⟨inner, spelled, rfl⟩ := read
    rw [step?] at h
    split at h
    · rename_i unit
      obtain ⟨rfl, rfl⟩ := Prod.mk.inj (Option.some.inj h)
      exact ⟨[], _, rfl, .nil, inner, [], spelled, rfl, rfl, by decide, by simp [unit]⟩
    · obtain ⟨escaped, known, same⟩ := Option.map_eq_some_iff.1 h
      obtain ⟨rfl, rfl⟩ := Prod.mk.inj same
      refine ⟨[], _, rfl, .nil, inner ++ ['\\', c], ?_, by simp⟩
      rw [List.reverse_cons]
      exact spelled.snoc (.short known)
  | hex pieces missing value =>
    obtain ⟨inner, digits, spelled, known, four, some?, rfl⟩ := read
    obtain ⟨digit, read, same⟩ := Option.map_eq_some_iff.1 h
    obtain ⟨rfl, rfl⟩ := Prod.mk.inj same
    have known : Quoted.hex? (digits ++ [c]) = some (16 * value + digit) := by
      rw [Quoted.hex?] at known ⊢
      rw [List.foldlM_append, known]
      simp [read]
    split
    · refine ⟨[], _, rfl, .nil, inner ++ '\\' :: 'u' :: (digits ++ [c]), ?_, by simp⟩
      rw [List.reverse_cons]
      exact spelled.snoc (.unit (by simp; omega) known)
    · exact ⟨[], _, rfl, .nil, inner, digits ++ [c], spelled, known, by simp; omega, by omega,
        by simp⟩
  | numeral taken | word taken =>
    rw [step?] at h
    split at h
    · obtain ⟨rfl, rfl⟩ := Prod.mk.inj (Option.some.inj h)
      obtain rfl : chars = _ := read
      exact ⟨[], _, rfl, .nil, by simp [Mode.Read]⟩
    · obtain ⟨ended, finished, h⟩ := Option.bind_eq_some_iff.1 h
      obtain ⟨⟨started, mode⟩, begun, h⟩ := Option.bind_eq_some_iff.1 h
      obtain ⟨rfl, rfl⟩ := Prod.mk.inj (Option.some.inj h)
      exact splits_ended finished begun read

theorem cuts_of_scanFrom? {mode : Mode} {pending : List Char}
    (h : scanFrom? mode done chars = some tokens) (read : mode.Read pending) :
    ∃ others, tokens = done.reverse ++ others ∧ Cuts others (pending ++ chars) := by
  induction chars generalizing mode done pending with
  | nil =>
    obtain ⟨ended, finished, rfl⟩ := Option.map_eq_some_iff.1 h
    exact ⟨ended, rfl, by simpa using cuts_of_finish? finished read⟩
  | cons c chars ih =>
    rw [scanFrom?] at h
    split at h
    · rename_i completed next step
      obtain ⟨front, rest, same, cuts, reads⟩ := splits_step? step read
      obtain ⟨others, rfl, behind⟩ := ih h reads
      have all : pending ++ c :: chars = front ++ (rest ++ chars) := by
        rw [← List.append_assoc, ← same]
        simp
      exact ⟨completed ++ others, by simp, all ▸ cuts.append behind⟩
    · cases h

/-- What is cut into tokens is a text of them. -/
theorem laid_of_scan? (h : scan? chars = some tokens) : Laid tokens chars := by
  obtain ⟨others, rfl, cuts⟩ := cuts_of_scanFrom? h rfl
  simpa using cuts [] [] .nil

end Token

end Feedkeeper.Json
