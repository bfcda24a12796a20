import Feedkeeper.Proofs.Json.Spelling

/-!
# The texts of a document

A text is one of a document if it spells the document's tokens, however they are spelled and
whatever blanks stand between them (`Document.SpelledAs`). The reader accepts exactly the texts of
documents, and reads each of them as its document (`Document.read?_eq_some_iff`). In particular a
text is one of a single document.

The tokens of a document keep apart, so that they are cut off each from the next. That tokens that
are nested to a document are its tokens goes along the reader : `Reader.Behind` says which tokens
are behind a reader with given open containers.
-/

namespace Feedkeeper.Json

namespace Document

open Token (Laid Apart)

/-- The text is one of the document : its tokens, with blanks between them. -/
def SpelledAs (document : Document) (text : String) : Prop :=
  Laid document.tokens text.toList

variable {rest : List Token}

/-! ## Tokens keep apart -/

theorem apart_cons_of_closed {token : Token} (closed : ¬token.IsOpen) (apart : Apart rest) :
    Apart (token :: rest) :=
  List.isChain_cons.2 ⟨fun _ _ isOpen => absurd isOpen closed, apart⟩

/-- What is behind an item or a member does not begin with a numeral or a word. -/
theorem closed_itemTokens (items : List Document) :
    ∀ token ∈ (itemTokens items ++ rest).head?, ¬token.IsOpen := by
  cases items <;> rintro token ⟨⟩ <;> exact not_false

theorem closed_memberTokens (members : List Member) :
    ∀ token ∈ (memberTokens members ++ rest).head?, ¬token.IsOpen := by
  cases members <;> rintro token ⟨⟩ <;> exact not_false

mutual

theorem apart_tokens_append : ∀ (document : Document) {rest : List Token}, Apart rest →
    (∀ token ∈ rest.head?, ¬token.IsOpen) → Apart (document.tokens ++ rest)
  | .null, _, apart, closed | .bool _, _, apart, closed | .number _, _, apart, closed
  | .string _, _, apart, closed => by
    rw [tokens]
    exact List.isChain_cons.2 ⟨fun token mem _ => closed token mem, apart⟩
  | .array [], _, apart, closed => by
    rw [tokens]
    exact apart_cons_of_closed not_false (apart_cons_of_closed not_false apart)
  | .array (item :: items), _, apart, closed => by
    rw [tokens, List.cons_append, List.append_assoc]
    exact apart_cons_of_closed not_false
      (apart_tokens_append item (apart_itemTokens_append items apart) (closed_itemTokens items))
  | .object [], _, apart, closed => by
    rw [tokens]
    exact apart_cons_of_closed not_false (apart_cons_of_closed not_false apart)
  | .object (member :: members), _, apart, closed => by
    rw [tokens, List.cons_append, List.cons_append, List.cons_append, List.append_assoc]
    exact apart_cons_of_closed not_false (apart_cons_of_closed not_false
      (apart_cons_of_closed not_false (apart_tokens_append member.2
        (apart_memberTokens_append members apart) (closed_memberTokens members))))

theorem apart_itemTokens_append : ∀ (items : List Document) {rest : List Token}, Apart rest →
    Apart (itemTokens items ++ rest)
  | [], _, apart => apart_cons_of_closed not_false apart
  | item :: items, _, apart => by
    rw [itemTokens, List.cons_append, List.append_assoc]
    exact apart_cons_of_closed not_false
      (apart_tokens_append item (apart_itemTokens_append items apart) (closed_itemTokens items))

theorem apart_memberTokens_append : ∀ (members : List Member) {rest : List Token}, Apart rest →
    Apart (memberTokens members ++ rest)
  | [], _, apart => apart_cons_of_closed not_false apart
  | member :: members, _, apart => by
    rw [memberTokens, List.cons_append, List.cons_append, List.cons_append, List.append_assoc]
    exact apart_cons_of_closed not_false (apart_cons_of_closed not_false
      (apart_cons_of_closed not_false (apart_tokens_append member.2
        (apart_memberTokens_append members apart) (closed_memberTokens members))))

end

/-- The tokens of a document keep apart. -/
theorem apart_tokens (document : Document) : Apart document.tokens := by
  simpa using @apart_tokens_append document [] List.isChain_nil nofun

/-! ## The tokens behind a reader -/

/-- The tokens of an open array, up to its next item; the items so far are given the last first. -/
def openItems : List Document → List Token
  | [] => [.openBracket]
  | item :: before => openItems before ++ item.tokens ++ [.comma]

/-- The tokens of an open object, up to its next key; the members so far are given the last
first. -/
def openMembers : List Member → List Token
  | [] => [.openBrace]
  | member :: before =>
    openMembers before ++ .string member.1 :: .colon :: member.2.tokens ++ [.comma]

/-- The tokens of the open containers, up to the next value or key in the innermost. -/
def openTokens : List Frame → List Token
  | [] => []
  | .array items :: stack => openTokens stack ++ openItems items
  | .object members :: stack => openTokens stack ++ openMembers members
  | .member members key :: stack => openTokens stack ++ openMembers members ++ [.string key, .colon]

/-- The tokens that a reader has taken. -/
inductive Reader.Behind : Reader → List Token → Prop
  | complete (document : Document) : Behind (.complete document) document.tokens
  | value (stack : List Frame) : Behind (.within .value stack) (openTokens stack)
  | firstItem (stack : List Frame) :
    Behind (.within .firstItem (.array [] :: stack)) (openTokens stack ++ [.openBracket])
  | key (members : List Member) (stack : List Frame) :
    Behind (.within .key (.object members :: stack)) (openTokens stack ++ openMembers members)
  | firstKey (stack : List Frame) :
    Behind (.within .firstKey (.object [] :: stack)) (openTokens stack ++ [.openBrace])
  | colon (members : List Member) (key : Option String) (stack : List Frame) :
    Behind (.within .colon (.member members key :: stack))
      (openTokens stack ++ openMembers members ++ [.string key])
  | item (item : Document) (items : List Document) (stack : List Frame) :
    Behind (.within .separator (.array (item :: items) :: stack))
      (openTokens stack ++ (openItems items ++ item.tokens))
  | member (member : Member) (members : List Member) (stack : List Frame) :
    Behind (.within .separator (.object (member :: members) :: stack))
      (openTokens stack ++ (openMembers members ++ .string member.1 :: .colon :: member.2.tokens))

theorem tokens_array_reverse (item : Document) (items after : List Document) :
    openItems items ++ item.tokens ++ itemTokens after =
      (Document.array ((item :: items).reverse ++ after)).tokens := by
  induction items generalizing item after with
  | nil => simp [openItems, tokens]
  | cons previous items ih =>
    rw [List.reverse_cons, List.append_assoc _ [item], List.singleton_append, ← ih]
    simp [openItems, itemTokens]

theorem tokens_object_reverse (member : Member) (members after : List Member) :
    openMembers members ++ .string member.1 :: .colon :: member.2.tokens ++ memberTokens after =
      (Document.object ((member :: members).reverse ++ after)).tokens := by
  induction members generalizing member after with
  | nil => simp [openMembers, tokens]
  | cons previous members ih =>
    rw [List.reverse_cons, List.append_assoc _ [member], List.singleton_append, ← ih]
    simp [openMembers, memberTokens]

/-- A value that is put into the innermost container is behind the reader then. -/
theorem behind_put? {document : Document} {stack : List Frame} {reader : Reader}
    (h : Reader.put? document stack = some reader) :
    reader.Behind (openTokens stack ++ document.tokens) := by
  unfold Reader.put? at h
  split at h
  · obtain rfl := Option.some.inj h
    exact .complete document
  · obtain rfl := Option.some.inj h
    rw [openTokens, List.append_assoc]
    exact .item _ _ _
  · obtain rfl := Option.some.inj h
    simp only [openTokens, List.append_assoc]
    exact .member _ _ _
  · cases h

variable {reader next : Reader} {token : Token} {stack : List Frame} {taken : List Token}

theorem behind_value? (h : Reader.value? stack token = some next) :
    next.Behind (openTokens stack ++ [token]) := by
  cases token with
  | null | bool | number | string => simpa [tokens] using behind_put? h
  | openBracket =>
    obtain rfl := Option.some.inj h
    exact .firstItem stack
  | openBrace =>
    obtain rfl := Option.some.inj h
    exact .firstKey stack
  | closeBracket | closeBrace | colon | comma => cases h

theorem behind_key? {members : List Member}
    (h : Reader.key? (.object members :: stack) token = some next) :
    next.Behind (openTokens stack ++ openMembers members ++ [token]) := by
  cases token with
  | string key =>
    obtain rfl := Option.some.inj h
    exact .colon members key stack
  | _ => cases h

/-- One token more is behind the reader after a step. -/
theorem behind_step? (behind : reader.Behind taken) (h : reader.step? token = some next) :
    next.Behind (taken ++ [token]) := by
  cases behind with
  | complete document => cases h
  | value stack => exact behind_value? h
  | firstItem stack =>
    rw [Reader.step?] at h
    split at h
    · rename_i closed
      subst closed
      simpa [tokens] using behind_put? h
    · exact behind_value? h
  | key members stack => exact behind_key? h
  | firstKey stack =>
    rw [Reader.step?] at h
    split at h
    · rename_i closed
      subst closed
      simpa [tokens] using behind_put? h
    · exact behind_key? h
  | colon members key stack =>
    rw [Reader.step?] at h
    split at h
    · rename_i colon
      subst colon
      obtain rfl := Option.some.inj h
      simpa [openTokens] using Reader.Behind.value (.member members key :: stack)
    · cases h
  | item item items stack =>
    cases token with
    | closeBracket =>
      have closed := behind_put? h
      rw [← List.append_nil (item :: items).reverse, ← tokens_array_reverse] at closed
      simpa [itemTokens] using closed
    | comma =>
      obtain rfl := Option.some.inj h
      simpa [openTokens, openItems] using Reader.Behind.value (.array (item :: items) :: stack)
    | _ => cases h
  | member member members stack =>
    cases token with
    | closeBrace =>
      have closed := behind_put? h
      rw [← List.append_nil (member :: members).reverse, ← tokens_object_reverse] at closed
      simpa [memberTokens] using closed
    | comma =>
      obtain rfl := Option.some.inj h
      simpa [openMembers] using Reader.Behind.key (member :: members) stack
    | _ => cases h

theorem behind_run? (behind : reader.Behind taken)
    (h : reader.run? rest = some next) : next.Behind (taken ++ rest) := by
  induction rest generalizing reader taken with
  | nil =>
    obtain rfl := Option.some.inj h
    simpa using behind
  | cons token rest ih =>
    rw [run?_cons] at h
    obtain ⟨reader, step, h⟩ := Option.bind_eq_some_iff.1 h
    rw [List.append_cons]
    exact ih (behind_step? behind step) h

theorem Reader.Behind.tokens_eq {document : Document}
    (behind : (Reader.complete document).Behind taken) : document.tokens = taken := by
  cases behind
  rfl

/-- Tokens that are nested to a document are its tokens. -/
theorem tokens_of_ofTokens? {document : Document} (h : ofTokens? rest = some document) :
    document.tokens = rest := by
  unfold ofTokens? at h
  split at h
  · rename_i complete
    obtain rfl := Option.some.inj h
    exact (behind_run? (.value []) complete).tokens_eq
  · cases h

/-! ## Texts and documents -/

/-- The reader accepts the texts of documents and nothing else, and reads each as its document. -/
theorem read?_eq_some_iff {text : String} {document : Document} :
    read? text = some document ↔ document.SpelledAs text := by
  constructor
  · intro h
    obtain ⟨tokens, scanned, nested⟩ := Option.bind_eq_some_iff.1 h
    rw [SpelledAs, tokens_of_ofTokens? nested]
    exact Token.laid_of_scan? scanned
  · intro spelled
    rw [read?, Token.scan?_of_laid spelled (apart_tokens document), Option.bind_some,
      ofTokens?_tokens]

end Document

end Feedkeeper.Json
