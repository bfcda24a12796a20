import Feedkeeper.Json.Document
import Feedkeeper.Proofs.Json.Numeral

/-!
# What is written is read

The text of a document is read as the document (`Document.read?_render`), for documents whose
strings are texts and whose numerals are integers. Reading has two halves. Cutting : every token is
cut off where it ends, because what follows a numeral or a word in a document can not go it on
(`Document.scanFrom?_tokens`). Nesting : the tokens of a document put it into the innermost
container that is open (`Document.run?_tokens`). Both are by induction on the document, together
with its items and its members.
-/

namespace Feedkeeper.Json

/-! ## Quoted text -/

theorem Quoted.hexValue?_hexDigit (n : Nat) : hexValue? (hexDigit n) = some (n % 16) := by
  have all : ∀ k < 16, hexValue? (hexDigit k) = some k := by decide
  have same : hexDigit n = hexDigit (n % 16) := by simp only [hexDigit, Nat.mod_mod]
  rw [same, all _ (Nat.mod_lt n (by decide))]

namespace Token

variable {done : List Token} {rest : List Char}

/-- A hexadecimal digit of an escape is taken in. -/
theorem scanFrom?_hexDigit (pieces : List Quoted.Piece) (missing value n : Nat) :
    scanFrom? (.hex pieces missing value) done (Quoted.hexDigit n :: rest) =
      scanFrom? (if missing ≤ 1 then .string (.ofUnit (16 * value + n % 16) :: pieces)
        else .hex pieces (missing - 1) (16 * value + n % 16)) done rest := by
  rw [scanFrom?, step?, Quoted.hexValue?_hexDigit]
  rfl

/-- A character as it stands between quotes is read as it. -/
theorem scanFrom?_encodeChar (pieces : List Quoted.Piece) (c : Char) :
    scanFrom? (.string pieces) done (Quoted.encodeChar c ++ rest) =
      scanFrom? (.string (.char c :: pieces)) done rest := by
  by_cases short : c ∈ ['"', '\\', '\x08', '\x0c', '\n', '\r', '\t']
  · simp only [List.mem_cons, List.not_mem_nil, or_false] at short
    rcases short with rfl | rfl | rfl | rfl | rfl | rfl | rfl <;> rfl
  simp only [List.mem_cons, List.not_mem_nil, or_false, not_or] at short
  obtain ⟨quote, backslash, h⟩ := short
  by_cases control : c.toNat < 0x20
  · have digits : Quoted.encodeChar c = ['\\', 'u', Quoted.hexDigit 0, Quoted.hexDigit 0,
        Quoted.hexDigit (c.toNat / 16), Quoted.hexDigit c.toNat] := by
      simp [Quoted.encodeChar, quote, backslash, h, control]
      rfl
    have unit : 16 * (16 * (16 * (16 * 0 + 0 % 16) + 0 % 16) + c.toNat / 16 % 16) + c.toNat % 16 =
        c.toNat := by omega
    have piece : Quoted.Piece.ofUnit c.toNat = .char c := by
      rw [Quoted.Piece.ofUnit, if_neg (by omega), Char.ofNat_toNat]
    have escape (tail : List Char) : scanFrom? (.string pieces) done ('\\' :: 'u' :: tail) =
        scanFrom? (.hex pieces 4 0) done tail := rfl
    simp only [digits, List.cons_append, List.nil_append]
    rw [escape, scanFrom?_hexDigit, if_neg (by decide), scanFrom?_hexDigit, if_neg (by decide),
      scanFrom?_hexDigit, if_neg (by decide), scanFrom?_hexDigit, if_pos (by decide), unit, piece]
  · simp [Quoted.encodeChar, quote, backslash, h, control, scanFrom?, step?]

theorem scanFrom?_chars (pieces : List Quoted.Piece) (text : List Char) :
    scanFrom? (.string pieces) done (text.flatMap Quoted.encodeChar ++ rest) =
      scanFrom? (.string ((text.map .char).reverse ++ pieces)) done rest := by
  induction text generalizing pieces with
  | nil => rfl
  | cons c text ih =>
    rw [List.flatMap_cons, List.append_assoc, scanFrom?_encodeChar, ih]
    simp

theorem scanFrom?_string (text : String) :
    scanFrom? .between done (Token.text (.string (some text)) ++ rest) =
      scanFrom? .between (.string (some text) :: done) rest := by
  have opened (tail : List Char) : scanFrom? .between done ('"' :: tail) =
      scanFrom? (.string []) done tail := rfl
  have closed (pieces : List Quoted.Piece) : scanFrom? (.string pieces) done ('"' :: rest) =
      scanFrom? .between (ofPieces pieces :: done) rest := rfl
  have token : ofPieces (text.toList.map .char).reverse = .string (some text) := by
    rw [ofPieces, List.reverse_reverse, Quoted.assemble_map_char, Option.map_some,
      String.ofList_toList]
  simp only [Token.text, Quoted.encode, Option.getD_some, List.cons_append, List.append_assoc,
    List.nil_append]
  rw [opened, scanFrom?_chars, closed, List.append_nil, token]

/-! ## Numerals and words -/

/-- What comes next can not go on a numeral or a word. -/
def Ended (rest : List Char) : Prop :=
  ∀ c ∈ rest.head?, isNumeralChar c = false ∧ isLetter c = false

theorem scanFrom?_ended_numeral {chars : List Char} {numeral : Numeral} (ended : Ended rest)
    (parsed : Numeral.parse? chars.reverse = some numeral) :
    scanFrom? (.numeral chars) done rest = scanFrom? .between (.number numeral :: done) rest := by
  cases rest with
  | nil => simp [scanFrom?, finish?, parsed]
  | cons c rest =>
    have other : isNumeralChar c = false := (ended c rfl).1
    cases h : start? c <;> simp [scanFrom?, step?, finish?, other, parsed, h]

theorem scanFrom?_ended_word {chars : List Char} {token : Token} (ended : Ended rest)
    (known : ofWord? chars.reverse = some token) :
    scanFrom? (.word chars) done rest = scanFrom? .between (token :: done) rest := by
  cases rest with
  | nil => simp [scanFrom?, finish?, known]
  | cons c rest =>
    have other : isLetter c = false := (ended c rfl).2
    cases h : start? c <;> simp [scanFrom?, step?, finish?, other, known, h]

theorem scanFrom?_digits (chars digits : List Char) (h : ∀ c ∈ digits, Digits.isDigit c = true) :
    scanFrom? (.numeral chars) done (digits ++ rest) =
      scanFrom? (.numeral (digits.reverse ++ chars)) done rest := by
  induction digits generalizing chars with
  | nil => rfl
  | cons c digits ih =>
    obtain ⟨first, others⟩ := List.forall_mem_cons.1 h
    simp [scanFrom?, step?, isNumeralChar, first, ih _ others]

/-- A character that begins an integer begins a numeral. -/
theorem start?_of_digit {c : Char} (h : c = '-' ∨ Digits.isDigit c = true) :
    start? c = some ([], .numeral [c]) := by
  have code : c.toNat = 45 ∨ 48 ≤ c.toNat ∧ c.toNat ≤ 57 := by
    rcases h with rfl | digit
    · exact Or.inl rfl
    · simpa [Digits.isDigit] using Or.inr digit
  have other (d : Char) (hd : d.toNat ≠ 45 ∧ ¬(48 ≤ d.toNat ∧ d.toNat ≤ 57)) : c ≠ d := by
    rintro rfl
    omega
  have blank : isBlank c = false := by
    simp [isBlank, other ' ' (by decide), other '\t' (by decide), other '\n' (by decide),
      other '\r' (by decide)]
  simp [start?, blank, other '\x7b' (by decide), other '\x7d' (by decide), other '[' (by decide),
    other ']' (by decide), other ':' (by decide), other ',' (by decide), other '"' (by decide), h]

theorem scanFrom?_number {numeral : Numeral} (integer : numeral.IsInteger) (ended : Ended rest) :
    scanFrom? .between done (numeral.text ++ rest) =
      scanFrom? .between (.number numeral :: done) rest := by
  obtain ⟨c, digits, text, first, others⟩ := integer.exists_text
  have parsed : Numeral.parse? (digits.reverse ++ [c]).reverse = some numeral := by
    simp [← text, integer.parse?_text]
  have begun (tail : List Char) : scanFrom? .between done (c :: tail) =
      scanFrom? (.numeral [c]) done tail := by
    rw [scanFrom?, step?, start?_of_digit first]
    rfl
  rw [text, List.cons_append, begun, scanFrom?_digits _ _ others,
    scanFrom?_ended_numeral ended parsed]

/-! ## Tokens -/

/-- The token has a text that is read as it : a string is a text, and a numeral an integer. -/
def Written : Token → Prop
  | number numeral => numeral.IsInteger
  | string text => text.isSome = true
  | _ => True

/-- The end of the token shows only in what follows it. -/
def IsOpen : Token → Prop
  | null | bool _ | number _ => True
  | _ => False

/-- A token is cut off where it ends. -/
theorem scanFrom?_text (token : Token) (written : token.Written)
    (ended : token.IsOpen → Ended rest) :
    scanFrom? .between done (token.text ++ rest) = scanFrom? .between (token :: done) rest := by
  cases token with
  | openBrace | closeBrace | openBracket | closeBracket | colon | comma => rfl
  | null =>
    have begun : scanFrom? .between done (text null ++ rest) =
      scanFrom? (.word ['l', 'l', 'u', 'n']) done rest := rfl
    rw [begun, scanFrom?_ended_word (ended trivial) rfl]
  | bool value =>
    cases value with
    | true =>
      have begun : scanFrom? .between done (text (bool true) ++ rest) =
        scanFrom? (.word ['e', 'u', 'r', 't']) done rest := rfl
      rw [begun, scanFrom?_ended_word (ended trivial) rfl]
    | false =>
      have begun : scanFrom? .between done (text (bool false) ++ rest) =
        scanFrom? (.word ['e', 's', 'l', 'a', 'f']) done rest := rfl
      rw [begun, scanFrom?_ended_word (ended trivial) rfl]
  | number numeral => exact scanFrom?_number written (ended trivial)
  | string text =>
    obtain ⟨text, rfl⟩ := Option.isSome_iff_exists.1 written
    exact scanFrom?_string text

end Token

namespace Document

open Token (Ended scanFrom? scanFrom?_text)

/-- The document has a text that is read as it. -/
def Written (document : Document) : Prop :=
  ∀ token ∈ document.tokens, token.Written

/-- The text behind an item or a member begins with a mark. -/
theorem ended_itemTokens (items : List Document) (rest : List Char) :
    Ended ((itemTokens items).flatMap Token.text ++ rest) := by
  cases items <;> rintro c ⟨⟩ <;> decide

theorem ended_memberTokens (members : List Member) (rest : List Char) :
    Ended ((memberTokens members).flatMap Token.text ++ rest) := by
  cases members <;> rintro c ⟨⟩ <;> decide

/-! ## Cutting -/

mutual

/-- The text of a document is cut into its tokens. -/
theorem scanFrom?_tokens (done : List Token) (rest : List Char) : ∀ (document : Document),
    document.Written → Ended rest →
    scanFrom? .between done (document.tokens.flatMap Token.text ++ rest) =
      scanFrom? .between (document.tokens.reverse ++ done) rest
  | .null, written, ended => by
    simpa [tokens] using scanFrom?_text .null trivial fun _ => ended
  | .bool value, written, ended => by
    simpa [tokens] using scanFrom?_text (.bool value) trivial fun _ => ended
  | .number numeral, written, ended => by
    have token : Token.Written (.number numeral) := written _ (by simp [tokens])
    simpa [tokens] using scanFrom?_text (.number numeral) token fun _ => ended
  | .string text, written, ended => by
    have token : Token.Written (.string text) := written _ (by simp [tokens])
    simpa [tokens] using scanFrom?_text (.string text) token fun _ => ended
  | .array [], written, ended => rfl
  | .array (item :: items), written, ended => by
    have head := scanFrom?_tokens (.openBracket :: done) _ item
      (fun token mem => written token (by simp [tokens, mem])) (ended_itemTokens items rest)
    have tail := scanFrom?_itemTokens (item.tokens.reverse ++ .openBracket :: done) rest
      items fun token mem => written token (by simp [tokens, mem])
    simp only [tokens, List.flatMap_cons, List.flatMap_append, List.append_assoc]
    rw [scanFrom?_text .openBracket trivial False.elim, head, tail]
    simp
  | .object [], written, ended => rfl
  | .object (member :: members), written, ended => by
    have key : Token.Written (.string member.1) := written _ (by simp [tokens])
    have head := scanFrom?_tokens (.colon :: .string member.1 :: .openBrace :: done) _ member.2
      (fun token mem => written token (by simp [tokens, mem])) (ended_memberTokens members rest)
    have tail := scanFrom?_memberTokens
      (member.2.tokens.reverse ++ .colon :: .string member.1 :: .openBrace :: done) rest members
      fun token mem => written token (by simp [tokens, mem])
    simp only [tokens, List.flatMap_cons, List.flatMap_append, List.append_assoc]
    rw [scanFrom?_text .openBrace trivial False.elim,
      scanFrom?_text (.string member.1) key False.elim,
      scanFrom?_text .colon trivial False.elim, head, tail]
    simp

theorem scanFrom?_itemTokens (done : List Token) (rest : List Char) : ∀ (items : List Document),
    (∀ token ∈ itemTokens items, token.Written) →
    scanFrom? .between done ((itemTokens items).flatMap Token.text ++ rest) =
      scanFrom? .between ((itemTokens items).reverse ++ done) rest
  | [], written => rfl
  | item :: items, written => by
    have head := scanFrom?_tokens (.comma :: done) _ item
      (fun token mem => written token (by simp [itemTokens, mem])) (ended_itemTokens items rest)
    have tail := scanFrom?_itemTokens (item.tokens.reverse ++ .comma :: done) rest items
      fun token mem => written token (by simp [itemTokens, mem])
    simp only [itemTokens, List.flatMap_cons, List.flatMap_append, List.append_assoc]
    rw [scanFrom?_text .comma trivial False.elim, head, tail]
    simp

theorem scanFrom?_memberTokens (done : List Token) (rest : List Char) : ∀ (members : List Member),
    (∀ token ∈ memberTokens members, token.Written) →
    scanFrom? .between done ((memberTokens members).flatMap Token.text ++ rest) =
      scanFrom? .between ((memberTokens members).reverse ++ done) rest
  | [], written => rfl
  | member :: members, written => by
    have key : Token.Written (.string member.1) := written _ (by simp [memberTokens])
    have head := scanFrom?_tokens (.colon :: .string member.1 :: .comma :: done) _ member.2
      (fun token mem => written token (by simp [memberTokens, mem]))
      (ended_memberTokens members rest)
    have tail := scanFrom?_memberTokens
      (member.2.tokens.reverse ++ .colon :: .string member.1 :: .comma :: done) rest members
      fun token mem => written token (by simp [memberTokens, mem])
    simp only [memberTokens, List.flatMap_cons, List.flatMap_append, List.append_assoc]
    rw [scanFrom?_text .comma trivial False.elim,
      scanFrom?_text (.string member.1) key False.elim,
      scanFrom?_text .colon trivial False.elim, head, tail]
    simp

end

/-! ## Nesting -/

theorem run?_cons (reader : Reader) (token : Token) (rest : List Token) :
    reader.run? (token :: rest) = (reader.step? token).bind (Reader.run? · rest) := by
  rw [Reader.run?]
  cases reader.step? token <;> rfl

/-- A document begins a value also where an array might end. -/
theorem run?_firstItem (document : Document) (stack : List Frame) (rest : List Token) :
    Reader.run? (.within .firstItem stack) (document.tokens ++ rest) =
      Reader.run? (.within .value stack) (document.tokens ++ rest) := by
  obtain ⟨token, others, first, unended⟩ :
      ∃ token others, document.tokens = token :: others ∧ token ≠ .closeBracket := by
    rcases document with _ | _ | _ | _ | (_ | _) | (_ | _) <;> exact ⟨_, _, rfl, by simp⟩
  have same : Reader.step? (.within .firstItem stack) token =
      Reader.step? (.within .value stack) token := if_neg unended
  rw [first, List.cons_append, run?_cons, run?_cons, same]

mutual

/-- The tokens of a document put it into the innermost container. -/
theorem run?_tokens {rest : List Token} : ∀ (document : Document) (stack : List Frame),
    Reader.run? (.within .value stack) (document.tokens ++ rest) =
      (Reader.put? document stack).bind (Reader.run? · rest)
  | .null, stack | .bool value, stack | .number numeral, stack | .string text, stack =>
    run?_cons _ _ _
  | .array [], stack => by
    simp [tokens, run?_cons, Reader.step?, Reader.value?, Reader.closeBracket?]
  | .array (item :: items), stack => by
    simp only [tokens, List.cons_append, List.append_assoc]
    rw [run?_cons]
    change Reader.run? (.within .firstItem (.array [] :: stack)) _ = _
    rw [run?_firstItem, run?_tokens item]
    exact run?_itemTokens items [item] stack
  | .object [], stack => by
    simp [tokens, run?_cons, Reader.step?, Reader.value?, Reader.closeBrace?]
  | .object (member :: members), stack => by
    simp only [tokens, List.cons_append, List.append_assoc]
    rw [run?_cons]
    change Reader.run? (.within .firstKey (.object [] :: stack)) (.string member.1 :: _) = _
    rw [run?_cons]
    change Reader.run? (.within .colon (.member [] member.1 :: stack)) (.colon :: _) = _
    rw [run?_cons]
    change Reader.run? (.within .value (.member [] member.1 :: stack)) _ = _
    rw [run?_tokens member.2]
    exact run?_memberTokens members [member] stack

/-- The tokens of the items that follow put them into the array. -/
theorem run?_itemTokens {rest : List Token} : ∀ (items done : List Document) (stack : List Frame),
    Reader.run? (.within .separator (.array done :: stack)) (itemTokens items ++ rest) =
      (Reader.put? (.array (done.reverse ++ items)) stack).bind (Reader.run? · rest)
  | [], done, stack => by
    rw [List.append_nil]
    exact run?_cons _ _ _
  | item :: items, done, stack => by
    have reversed : done.reverse ++ item :: items = (item :: done).reverse ++ items := by simp
    simp only [itemTokens, List.cons_append, List.append_assoc]
    rw [run?_cons, reversed, ← run?_itemTokens items (item :: done) stack]
    exact run?_tokens item (.array done :: stack)

/-- The tokens of the members that follow put them into the object. -/
theorem run?_memberTokens {rest : List Token} : ∀ (members done : List Member) (stack : List Frame),
    Reader.run? (.within .separator (.object done :: stack)) (memberTokens members ++ rest) =
      (Reader.put? (.object (done.reverse ++ members)) stack).bind (Reader.run? · rest)
  | [], done, stack => by
    rw [List.append_nil]
    exact run?_cons _ _ _
  | member :: members, done, stack => by
    have reversed : done.reverse ++ member :: members = (member :: done).reverse ++ members := by
      simp
    simp only [memberTokens, List.cons_append, List.append_assoc]
    rw [run?_cons, reversed, ← run?_memberTokens members (member :: done) stack]
    change Reader.run? (.within .key (.object done :: stack)) (.string member.1 :: _) = _
    rw [run?_cons]
    change Reader.run? (.within .colon (.member done member.1 :: stack)) (.colon :: _) = _
    rw [run?_cons]
    exact run?_tokens member.2 (.member done member.1 :: stack)

end

/-- The document of the tokens of a document is the document. -/
theorem ofTokens?_tokens (document : Document) : ofTokens? document.tokens = some document := by
  rw [ofTokens?, ← List.append_nil document.tokens, run?_tokens]
  rfl

/-- A document is read as it is written. -/
theorem read?_render {document : Document} (written : document.Written) :
    read? document.render = some document := by
  have scanned : Token.scan? (document.tokens.flatMap Token.text) = some document.tokens := by
    have nothing : Ended [] := nofun
    rw [Token.scan?, ← List.append_nil (document.tokens.flatMap Token.text),
      scanFrom?_tokens _ _ document written nothing]
    simp [scanFrom?, Token.finish?]
  rw [read?, render, String.toList_ofList, scanned, Option.bind_some, ofTokens?_tokens]

/-! ## Documents that are written -/

theorem written_itemTokens {items : List Document} :
    (∀ token ∈ itemTokens items, token.Written) ↔ ∀ item ∈ items, item.Written := by
  induction items with
  | nil => simp [itemTokens, Token.Written]
  | cons item items ih =>
    rw [itemTokens, List.forall_mem_cons, List.forall_mem_append, ih, List.forall_mem_cons]
    exact and_iff_right trivial

theorem written_memberTokens {members : List Member} :
    (∀ token ∈ memberTokens members, token.Written) ↔
      ∀ member ∈ members, member.1.isSome = true ∧ member.2.Written := by
  induction members with
  | nil => simp [memberTokens, Token.Written]
  | cons member members ih =>
    rw [memberTokens, List.forall_mem_cons, List.forall_mem_cons, List.forall_mem_cons,
      List.forall_mem_append, ih, List.forall_mem_cons, and_assoc]
    exact (and_iff_right trivial).trans (and_congr_right' (and_iff_right trivial))

theorem written_array {items : List Document} :
    (Document.array items).Written ↔ ∀ item ∈ items, item.Written := by
  cases items with
  | nil => simp [Written, tokens, Token.Written]
  | cons item items =>
    rw [Written, tokens, List.forall_mem_cons, List.forall_mem_append, written_itemTokens,
      List.forall_mem_cons]
    exact and_iff_right trivial

theorem written_object {members : List Member} : (Document.object members).Written ↔
    ∀ member ∈ members, member.1.isSome = true ∧ member.2.Written := by
  cases members with
  | nil => simp [Written, tokens, Token.Written]
  | cons member members =>
    rw [Written, tokens, List.forall_mem_cons, List.forall_mem_cons, List.forall_mem_cons,
      List.forall_mem_append, written_memberTokens, List.forall_mem_cons, and_assoc]
    exact (and_iff_right trivial).trans (and_congr_right' (and_iff_right trivial))

end Document

end Feedkeeper.Json
