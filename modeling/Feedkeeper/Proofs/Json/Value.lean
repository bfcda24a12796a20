import Feedkeeper.Json.Value
import Feedkeeper.Proofs.Json.Text
import Mathlib.Data.String.Basic

/-!
# Values that come back from their documents

Free JSON comes back from its document if its numbers are integers of 64 bits, its members are in
ascending order, and its containers nest within the budget (`Json.Storable`,
`Document.free?_ofJson`). The last two hold of whatever is read (`Json.storable_of_free?`). A record
comes back from the object of its fields (`Document.fields?_ofFields`).
-/

namespace Feedkeeper.Json

/-! ## Members in ascending order -/

/-- The members are in ascending order of their keys, each key once. -/
def Ascending (members : List (String × Json)) : Prop :=
  members.Pairwise fun first second => first.1 < second.1

variable {key : String} {value : Json} {members : List (String × Json)} {member : String × Json}

theorem mem_insertMember (h : member ∈ insertMember key value members) :
    member = (key, value) ∨ member ∈ members := by
  induction members with
  | nil => exact Or.inl (List.mem_singleton.1 h)
  | cons head rest ih =>
    rw [insertMember] at h
    split at h
    · exact (List.mem_cons.1 h).imp_right (List.mem_cons_of_mem _)
    split at h
    · exact List.mem_cons.1 h
    · rcases List.mem_cons.1 h with rfl | h
      · exact Or.inr List.mem_cons_self
      · exact (ih h).imp_right (List.mem_cons_of_mem _)

theorem ascending_insertMember (h : Ascending members) :
    Ascending (insertMember key value members) := by
  induction members with
  | nil => exact List.pairwise_singleton _ _
  | cons head rest ih =>
    obtain ⟨above, ascending⟩ := List.pairwise_cons.1 h
    rw [insertMember]
    split
    · rename_i same
      subst same
      exact List.pairwise_cons.2 ⟨above, ascending⟩
    rename_i differs
    split
    · rename_i before
      refine List.pairwise_cons.2 ⟨fun member mem => ?_, h⟩
      rcases List.mem_cons.1 mem with rfl | mem
      · exact before
      · exact lt_trans before (above member mem)
    · rename_i behind
      refine List.pairwise_cons.2 ⟨fun member mem => ?_, ih ascending⟩
      rcases mem_insertMember mem with rfl | mem
      · exact lt_of_le_of_ne (not_lt.1 behind) (Ne.symm differs)
      · exact above member mem

/-- A member whose key is behind all others goes to the end. -/
theorem insertMember_of_lt (h : ∀ member ∈ members, member.1 < key) :
    insertMember key value members = members ++ [(key, value)] := by
  induction members with
  | nil => rfl
  | cons head rest ih =>
    obtain ⟨before, others⟩ := List.forall_mem_cons.1 h
    rw [insertMember, if_neg before.ne', if_neg before.not_gt, ih others, List.cons_append]

theorem ascending_sortMembers (members : List (String × Json)) :
    Ascending (sortMembers members) := by
  suffices ∀ sorted, Ascending sorted → Ascending (members.foldl
      (fun sorted member => insertMember member.1 member.2 sorted) sorted) from
    this [] List.Pairwise.nil
  induction members with
  | nil => exact fun _ h => h
  | cons member rest ih => exact fun sorted h => ih _ (ascending_insertMember h)

/-- Nothing is put in but the members. -/
theorem mem_of_mem_sortMembers (h : member ∈ sortMembers members) : member ∈ members := by
  suffices ∀ sorted, member ∈ members.foldl
      (fun sorted member => insertMember member.1 member.2 sorted) sorted →
        member ∈ sorted ∨ member ∈ members from (this [] h).resolve_left List.not_mem_nil
  clear h
  induction members with
  | nil => exact fun _ h => Or.inl h
  | cons first rest ih =>
    intro sorted h
    rcases ih _ h with h | h
    · rcases mem_insertMember h with rfl | h
      · exact Or.inr List.mem_cons_self
      · exact Or.inl h
    · exact Or.inr (List.mem_cons_of_mem _ h)

/-- Members in ascending order stay as they are. -/
theorem Ascending.sortMembers_eq (h : Ascending members) : sortMembers members = members := by
  suffices ∀ sorted, Ascending (sorted ++ members) → members.foldl
      (fun sorted member => insertMember member.1 member.2 sorted) sorted = sorted ++ members from
    this [] h
  clear h
  induction members with
  | nil => exact fun sorted _ => (List.append_nil sorted).symm
  | cons member rest ih =>
    intro sorted h
    have last : ∀ before ∈ sorted, before.1 < member.1 := fun before mem =>
      (List.pairwise_append.1 h).2.2 before mem member List.mem_cons_self
    have split : sorted ++ member :: rest = sorted ++ [member] ++ rest := by simp
    rw [List.foldl_cons, insertMember_of_lt last, split]
    exact ih _ (split ▸ h)

/-! ## Free JSON -/

mutual

/-- All numbers in the value are integers. -/
def Integral : Json → Prop
  | .null | .bool _ | .string _ | .number (.int _) => True
  | .number (.double _) => False
  | .array items => IntegralItems items
  | .object members => IntegralMembers members

/-- The same of all items. -/
def IntegralItems : List Json → Prop
  | [] => True
  | item :: rest => item.Integral ∧ IntegralItems rest

/-- The same of the values of all members. -/
def IntegralMembers : List (String × Json) → Prop
  | [] => True
  | member :: rest => member.2.Integral ∧ IntegralMembers rest

end

mutual

/-- The value comes back from its text : its numbers are integers of 64 bits, members are in
ascending order, and at most `depth` containers lie within each other. -/
def Storable : Nat → Json → Prop
  | _, .null | _, .bool _ | _, .string _ => True
  | _, .number (.int value) => Number.Fits value
  | _, .number (.double _) => False
  | 0, .array _ | 0, .object _ => False
  | depth + 1, .array items => StorableItems depth items
  | depth + 1, .object members => Ascending members ∧ StorableMembers depth members

/-- All items are storable. -/
def StorableItems : Nat → List Json → Prop
  | _, [] => True
  | depth, item :: rest => item.Storable depth ∧ StorableItems depth rest

/-- The values of all members are storable. -/
def StorableMembers : Nat → List (String × Json) → Prop
  | _, [] => True
  | depth, member :: rest => member.2.Storable depth ∧ StorableMembers depth rest

end

theorem integralMembers_iff {members : List (String × Json)} :
    IntegralMembers members ↔ ∀ member ∈ members, member.2.Integral := by
  induction members with
  | nil => simp [IntegralMembers]
  | cons member rest ih => rw [IntegralMembers, ih, List.forall_mem_cons]

theorem storableMembers_iff {depth : Nat} {members : List (String × Json)} :
    StorableMembers depth members ↔ ∀ member ∈ members, member.2.Storable depth := by
  induction members with
  | nil => simp [StorableMembers]
  | cons member rest ih => rw [StorableMembers, ih, List.forall_mem_cons]

namespace Document

mutual

/-- A value comes back from its document. -/
theorem free?_ofJson : ∀ {depth : Nat} (value : Json), value.Storable depth →
    free? depth (ofJson value) = some value
  | _, .null, _ | _, .bool _, _ | _, .string _, _ => by simp [ofJson, free?]
  | _, .number (.int value), fits => by
    have parsed := Numeral.toNumber?_ofInt (by simpa [Storable] using fits : Number.Fits value)
    simp [ofJson, free?, Numeral.ofNumber?, parsed]
  | _, .number (.double _), h => by simp [Storable] at h
  | 0, .array _, h | 0, .object _, h => by simp [Storable] at h
  | depth + 1, .array items, h => by
    rw [ofJson, free?, freeItems?_ofItems items (by simpa [Storable] using h)]
    rfl
  | depth + 1, .object members, h => by
    rw [Storable] at h
    rw [ofJson, free?, freeMembers?_ofMembers members h.2, Option.map_some, Json.ofMembers,
      h.1.sortMembers_eq]

theorem freeItems?_ofItems : ∀ {depth : Nat} (items : List Json), StorableItems depth items →
    freeItems? depth (ofItems items) = some items
  | _, [], _ => rfl
  | depth, item :: rest, h => by
    rw [StorableItems] at h
    rw [ofItems, freeItems?, free?_ofJson item h.1, freeItems?_ofItems rest h.2]

theorem freeMembers?_ofMembers : ∀ {depth : Nat} (members : List (String × Json)),
    StorableMembers depth members → freeMembers? depth (ofMembers members) = some members
  | _, [], _ => rfl
  | depth, member :: rest, h => by
    rw [StorableMembers] at h
    rw [ofMembers, freeMembers?, free?_ofJson member.2 h.1, freeMembers?_ofMembers rest h.2]

end

mutual

/-- The document of a value has a text. -/
theorem written_ofJson : ∀ {depth : Nat} (value : Json), value.Storable depth →
    (ofJson value).Written
  | _, .null, _ | _, .bool _, _ | _, .string _, _ => by
    simp [ofJson, Written, tokens, Token.Written]
  | _, .number (.int value), _ => by
    simpa [ofJson, Numeral.ofNumber?, Written, tokens, Token.Written] using
      Numeral.isInteger_ofInt value
  | _, .number (.double _), h => by simp [Storable] at h
  | 0, .array _, h | 0, .object _, h => by simp [Storable] at h
  | depth + 1, .array items, h => by
    rw [ofJson, written_array]
    exact written_ofItems items (by simpa [Storable] using h)
  | depth + 1, .object members, h => by
    rw [Storable] at h
    rw [ofJson, written_object]
    exact written_ofMembers members h.2

theorem written_ofItems : ∀ {depth : Nat} (items : List Json), StorableItems depth items →
    ∀ item ∈ ofItems items, item.Written
  | _, [], _ => nofun
  | depth, item :: rest, h => by
    rw [StorableItems] at h
    rw [ofItems, List.forall_mem_cons]
    exact ⟨written_ofJson item h.1, written_ofItems rest h.2⟩

theorem written_ofMembers : ∀ {depth : Nat} (members : List (String × Json)),
    StorableMembers depth members →
    ∀ member ∈ ofMembers members, member.1.isSome = true ∧ member.2.Written
  | _, [], _ => nofun
  | depth, member :: rest, h => by
    rw [StorableMembers] at h
    rw [ofMembers, List.forall_mem_cons]
    exact ⟨⟨rfl, written_ofJson member.2 h.1⟩, written_ofMembers rest h.2⟩

end

mutual

/-- A value that was read comes back from its own text, if its numbers are integers. -/
theorem storable_of_free? : ∀ {depth : Nat} (document : Document) {value : Json},
    free? depth document = some value → value.Integral → value.Storable depth
  | _, .null, value, h, _ | _, .bool _, value, h, _ => by
    simp only [free?, Option.some.injEq] at h
    subst h
    simp [Storable]
  | _, .number numeral, value, h, integral => by
    obtain ⟨number, parsed, rfl⟩ := Option.map_eq_some_iff.1 (by simpa [free?] using h)
    cases number with
    | int value => simpa [Storable] using Numeral.fits_of_toNumber? parsed
    | double => simp [Integral] at integral
  | _, .string text, value, h, _ => by
    obtain ⟨text, -, rfl⟩ := Option.map_eq_some_iff.1 (by simpa [free?] using h)
    simp [Storable]
  | 0, .array _, _, h, _ | 0, .object _, _, h, _ => by simp [free?] at h
  | depth + 1, .array items, value, h, integral => by
    obtain ⟨values, read, rfl⟩ := Option.map_eq_some_iff.1 (by simpa [free?] using h)
    rw [Integral] at integral
    rw [Storable]
    exact storable_of_freeItems? items read integral
  | depth + 1, .object members, value, h, integral => by
    obtain ⟨values, read, rfl⟩ := Option.map_eq_some_iff.1 (by simpa [free?] using h)
    rw [Json.ofMembers, Integral, integralMembers_iff] at integral
    rw [Json.ofMembers, Storable, storableMembers_iff]
    refine ⟨ascending_sortMembers values, fun member mem => ?_⟩
    exact storable_of_freeMembers? members read member (mem_of_mem_sortMembers mem)
      (integral member mem)

theorem storable_of_freeItems? : ∀ {depth : Nat} (items : List Document) {values : List Json},
    freeItems? depth items = some values → IntegralItems values → StorableItems depth values
  | _, [], values, h, _ => by
    obtain rfl : [] = values := by simpa [freeItems?] using h
    simp [StorableItems]
  | depth, item :: rest, values, h, integral => by
    rw [freeItems?] at h
    split at h
    · rename_i first others read reads
      obtain rfl := Option.some.inj h
      rw [IntegralItems] at integral
      rw [StorableItems]
      exact ⟨storable_of_free? item read integral.1, storable_of_freeItems? rest reads integral.2⟩
    · cases h

theorem storable_of_freeMembers? : ∀ {depth : Nat} (members : List Member)
    {values : List (String × Json)}, freeMembers? depth members = some values →
    ∀ value ∈ values, value.2.Integral → value.2.Storable depth
  | _, [], values, h => by
    obtain rfl : [] = values := by simpa [freeMembers?] using h
    exact nofun
  | depth, member :: rest, values, h => by
    rw [freeMembers?] at h
    split at h
    · rename_i key value others _ read reads
      obtain rfl := Option.some.inj h
      rw [List.forall_mem_cons]
      exact ⟨storable_of_free? member.2 read, storable_of_freeMembers? rest reads⟩
    · cases h

end

/-! ## Plain values -/

@[simp] theorem text?_ofText (text : String) : (ofText text).text? = some text :=
  rfl

theorem word?_ofWord {n : Nat} (h : n < Nat.pow 2 64) : (ofWord n).word? = some n := by
  simp only [word?, ofWord, Numeral.toNat?_ofNat, Option.bind_some, if_pos h]

theorem lt_of_word? {document : Document} {n : Nat} (h : document.word? = some n) :
    n < Nat.pow 2 64 := by
  unfold word? at h
  split at h
  · obtain ⟨word, -, h⟩ := Option.bind_eq_some_iff.1 h
    split at h
    · obtain rfl := Option.some.inj h
      assumption
    · cases h
  · cases h

/-- Values that come back one by one come back together. -/
theorem mapM_map {α β : Type} {encode : α → β} {decode? : β → Option α} {values : List α}
    (h : ∀ value ∈ values, decode? (encode value) = some value) :
    (values.map encode).mapM decode? = some values := by
  induction values with
  | nil => rfl
  | cons value rest ih =>
    obtain ⟨first, others⟩ := List.forall_mem_cons.1 h
    simp [List.mapM_cons, first, ih others]

/-- What several documents are read as comes from them one by one. -/
theorem exists_of_mem_mapM {α β : Type} {decode? : β → Option α} {sources : List β}
    {values : List α} (h : sources.mapM decode? = some values) {value : α} (mem : value ∈ values) :
    ∃ source ∈ sources, decode? source = some value := by
  induction sources generalizing values with
  | nil =>
    obtain rfl : [] = values := by simpa using h
    cases mem
  | cons source rest ih =>
    rw [List.mapM_cons] at h
    obtain ⟨first, read, h⟩ := Option.bind_eq_some_iff.1 h
    obtain ⟨others, reads, h⟩ := Option.bind_eq_some_iff.1 h
    obtain rfl := Option.some.inj h
    rcases List.mem_cons.1 mem with rfl | mem
    · exact ⟨source, List.mem_cons_self, read⟩
    · obtain ⟨source, mem, read⟩ := ih reads mem
      exact ⟨source, List.mem_cons_of_mem _ mem, read⟩

theorem texts?_map_ofText {depth : Nat} (h : depth ≠ 0) (texts : List String) :
    (Document.array (texts.map ofText)).texts? depth = some texts := by
  rw [texts?, if_neg h, mapM_map fun text _ => text?_ofText text]

/-- A value that may be missing comes back, as long as none is written like a missing one. -/
theorem optional?_ofOption {α : Type} {encode : α → Document} {decode? : Document → Option α}
    (h : ∀ value, decode? (encode value) = some value) (present : ∀ value, encode value ≠ .null)
    (value : Option α) : optional? decode? (some (ofOption encode value)) = some value := by
  cases value with
  | none => rfl
  | some value =>
    unfold optional? ofOption
    split
    · contradiction
    · rename_i missing
      exact absurd (Option.some.inj missing) (present value)
    · rename_i document same
      obtain rfl := Option.some.inj same
      rw [h, Option.map_some]

theorem optional?_ofText (text : Option String) :
    optional? Document.text? (some (ofOption ofText text)) = some text :=
  optional?_ofOption text?_ofText (fun _ => nofun) text

/-! ## Records -/

theorem keyed?_map (fields : List (String × Document)) :
    keyed? (fields.map fun field => (some field.1, field.2)) = some fields :=
  mapM_map fun _ _ => rfl

/-- A member is found under its name, if no other has it. -/
theorem field?_of_mem {fields : List (String × Document)} {field : String × Document}
    (distinct : (fields.map (·.1)).Nodup) (mem : field ∈ fields) :
    field? fields field.1 = some (some field.2) := by
  have alone : fields.filter (·.1 == field.1) = [field] := by
    induction fields with
    | nil => cases mem
    | cons head rest ih =>
      rw [List.map_cons, List.nodup_cons] at distinct
      rcases List.mem_cons.1 mem with rfl | mem
      · have others : rest.filter (·.1 == field.1) = [] := by
          refine List.filter_eq_nil_iff.2 fun other mem same => distinct.1 ?_
          exact List.mem_map.2 ⟨other, mem, by simpa using same⟩
        rw [List.filter_cons_of_pos (by simp), others]
      · have differs : head.1 ≠ field.1 := fun same =>
          distinct.1 (same ▸ List.mem_map_of_mem mem)
        rw [List.filter_cons_of_neg (by simpa using differs), ih distinct.2 mem]
  rw [field?, alone]

/-- The fields of a record come back from its object. -/
theorem fields?_ofFields {names : List String} {fields : List (String × Document)}
    (named : fields.map (·.1) = names) (distinct : names.Nodup) (least depth : Nat) :
    fields? names least (depth + 1) (ofFields fields) =
      some (fields.map fun field => some field.2, depth) := by
  subst named
  have found (part : List (String × Document)) (sub : part ⊆ fields) :
      (part.map (·.1)).mapM (field? fields) = some (part.map fun field => some field.2) := by
    induction part with
    | nil => rfl
    | cons field rest ih =>
      obtain ⟨mem, sub⟩ := List.cons_subset.1 sub
      simp [List.mapM_cons, field?_of_mem distinct mem, ih sub]
  rw [ofFields, fields?, if_neg (Nat.succ_ne_zero depth), keyed?_map]
  simp only [Option.bind_eq_bind, Option.bind_some, found fields (List.Subset.refl _)]
  rfl

/-- A record is read from its object, if it is from its fields. -/
theorem bind_fields?_ofFields {α : Type} {names : List String} {least : Nat}
    {fields : List (String × Document)} {build : List (Option Document) × Nat → Option α}
    {value : α} (depth : Nat) (named : fields.map (·.1) = names) (distinct : names.Nodup)
    (built : build (fields.map fun field => some field.2, depth) = some value) :
    (fields? names least (depth + 1) (ofFields fields)).bind build = some value := by
  rw [fields?_ofFields named distinct, Option.bind_some, built]

/-- A record that is read leaves one container less for its fields. -/
theorem exists_of_bind_fields? {α : Type} {names : List String} {least depth : Nat}
    {document : Document} {build : List (Option Document) × Nat → Option α} {value : α}
    (h : (fields? names least depth document).bind build = some value) :
    ∃ fields, build (fields, depth - 1) = some value := by
  obtain ⟨⟨fields, rest⟩, read, built⟩ := Option.bind_eq_some_iff.1 h
  suffices same : rest = depth - 1 from ⟨fields, same ▸ built⟩
  unfold fields? at read
  split at read
  · split at read
    · cases read
    · exact (Prod.mk.inj (Option.some.inj read)).2.symm
  · split at read
    · cases read
    · obtain ⟨members, -, read⟩ := Option.bind_eq_some_iff.1 read
      obtain ⟨found, -, read⟩ := Option.bind_eq_some_iff.1 read
      exact (Prod.mk.inj (Option.some.inj read)).2.symm
  · cases read

/-! ## Texts of plain values and records -/

@[simp] theorem written_null : Document.null.Written := by
  simp [Written, tokens, Token.Written]

@[simp] theorem written_bool (value : Bool) : (Document.bool value).Written := by
  simp [Written, tokens, Token.Written]

@[simp] theorem written_ofText (text : String) : (ofText text).Written := by
  simp [Written, ofText, tokens, Token.Written]

@[simp] theorem written_ofWord (n : Nat) : (ofWord n).Written := by
  simpa [Written, ofWord, tokens, Token.Written] using Numeral.isInteger_ofNat n

@[simp] theorem written_ofOption {α : Type} {encode : α → Document}
    (h : ∀ value, (encode value).Written)
    (value : Option α) : (ofOption encode value).Written := by
  cases value with
  | none => exact written_null
  | some value => exact h value

theorem written_ofFields {fields : List (String × Document)}
    (written : ∀ field ∈ fields, field.2.Written) : (ofFields fields).Written := by
  rw [ofFields, written_object]
  intro member mem
  obtain ⟨field, found, rfl⟩ := List.mem_map.1 mem
  exact ⟨rfl, written field found⟩

end Document

end Feedkeeper.Json
