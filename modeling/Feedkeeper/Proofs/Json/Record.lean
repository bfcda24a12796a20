import Feedkeeper.Proofs.Json.Order

/-!
# Records laid out in other ways

A record is given as an object, whatever other members that has, or as an array of all its fields
(`Document.Presents`). Two documents lay a record out in different ways if they present the same
fields, up to the order of members in their values, or up to what else a field may vary in
(`Document.Rearranged`). Both are then read alike, whatever is made of the fields, as long as that
does not tell such values apart (`Document.bind_fields?_rearranged`).
-/

namespace Feedkeeper.Json

namespace Document

/-! ## Members by name -/

/-- The value of the member with the name. -/
def member? (members : List Member) (name : String) : Option Document :=
  (members.find? (·.1 == some name)).map (·.2)

/-- All keys are texts. -/
def Named (members : List Member) : Prop :=
  ∀ member ∈ members, member.1.isSome = true

variable {members middle others : List Member} {name : String} {value document other : Document}

theorem member?_cons (member : Member) : member? (member :: members) name =
    if member.1 = some name then some member.2 else member? members name := by
  unfold member?
  by_cases same : member.1 = some name <;> simp [same]

/-- Under distinct keys, whatever is a member is found. -/
theorem member?_eq_some_iff (distinct : (members.filterMap (·.1)).Nodup) :
    member? members name = some value ↔ (some name, value) ∈ members := by
  induction members with
  | nil => simp [member?]
  | cons member rest ih =>
    obtain ⟨key, here⟩ := member
    rw [member?_cons, List.mem_cons]
    by_cases same : key = some name
    · subst same
      have new : name ∉ rest.filterMap (·.1) := (List.nodup_cons.1 distinct).1
      have alone : (some name, value) ∉ rest := fun mem =>
        new (List.mem_filterMap.2 ⟨_, mem, rfl⟩)
      simp [alone, eq_comm]
    · have tail : (rest.filterMap (·.1)).Nodup :=
        distinct.sublist ((List.sublist_cons_self _ _).filterMap _)
      simp [same, Ne.symm same, ih tail]

theorem member?_perm (order : members.Perm others) (distinct : (members.filterMap (·.1)).Nodup) :
    member? members name = member? others name := by
  ext value
  rw [member?_eq_some_iff distinct,
    member?_eq_some_iff ((order.filterMap (·.1)).nodup_iff.1 distinct), order.mem_iff]

theorem member?_forall₂ (each : List.Forall₂ ReorderedMember members others) (name : String) :
    Option.Rel Reordered (member? members name) (member? others name) := by
  induction each with
  | nil => exact .none
  | cons first _ ih =>
    rw [member?_cons, member?_cons, first.1]
    split
    · exact .some first.2
    · exact ih

/-! ## Fields -/

/-- A field of a record. -/
structure Field where
  name : String
  /-- How else the value may be given. -/
  varies : Document → Document → Prop := fun _ _ => False
  /-- What may stand for the field, if it may be left out. -/
  absent : Document → Prop := fun _ => False

/-- Two documents give the field alike. -/
inductive Field.Agrees (field : Field) : Option Document → Option Document → Prop
  | missing : Agrees field none none
  | reordered {value other : Document} (same : value.Reordered other) :
    Agrees field (some value) (some other)
  | varied {value other : Document} (same : field.varies value other) :
    Agrees field (some value) (some other)
  | supplied {value : Document} (absent : field.absent value) : Agrees field none (some value)
  | omitted {value : Document} (absent : field.absent value) : Agrees field (some value) none

/-- The values of each field are related. -/
inductive Each (related : Field → Option Document → Option Document → Prop) :
    List Field → List (Option Document) → List (Option Document) → Prop
  | nil : Each related [] [] []
  | cons {field : Field} {value other : Option Document} {fields : List Field}
    {values others : List (Option Document)} (first : related field value other)
    (rest : Each related fields values others) :
    Each related (field :: fields) (value :: values) (other :: others)

/-- The document gives the fields the values : as the members of an object, or as an array. -/
inductive Presents (fields : List Field) : Document → List (Option Document) → Prop
  | object {members : List Member} (named : Named members) :
    Presents fields (.object members) (fields.map fun field => member? members field.name)
  | array {items : List Document} : Presents fields (.array items) (items.map some)

/-- The documents differ in how they lay out the record with the fields. -/
inductive Rearranged (fields : List Field) : Document → Document → Prop
  | reordered {document other : Document} (same : document.Reordered other) :
    Rearranged fields document other
  | presented {document other : Document} {values values' : List (Option Document)}
    (presents : Presents fields document values) (presents' : Presents fields other values')
    (agree : Each Field.Agrees fields values values') : Rearranged fields document other
  | arrays {items others : List Document} (same : items.length = others.length)
    (agree : ∀ part ∈ fields.zip (items.zip others),
      part.1.Agrees (some part.2.1) (some part.2.2)) :
    Rearranged fields (.array items) (.array others)
  | unread {members others : List Member} (unnamed : ¬Named members) (unnamed' : ¬Named others) :
    Rearranged fields (.object members) (.object others)

/-! ## What is read of a record -/

section

variable {fields : List Field} {names : List String} {values values' : List (Option Document)}
  {least depth : Nat}

/-- Two documents give the field alike, in values without repeated keys. -/
def Field.Alike (field : Field) (value other : Option Document) : Prop :=
  field.Agrees value other ∧ (∀ document ∈ value, document.Distinct) ∧
    ∀ document ∈ other, document.Distinct

theorem exists_of_named (named : Named members) :
    ∃ keyed : List (String × Document),
      members = keyed.map fun member => (some member.1, member.2) := by
  induction members with
  | nil => exact ⟨[], rfl⟩
  | cons member rest ih =>
    obtain ⟨first, others⟩ := List.forall_mem_cons.1 named
    obtain ⟨key, same⟩ := Option.isSome_iff_exists.1 first
    obtain ⟨keyed, rfl⟩ := ih others
    exact ⟨(key, member.2) :: keyed, by simp [← same]⟩

theorem named_of_keyed? {keyed : List (String × Document)} (h : keyed? members = some keyed) :
    Named members := by
  induction members generalizing keyed with
  | nil => exact nofun
  | cons member rest ih =>
    rw [keyed?, List.mapM_cons] at h
    obtain ⟨first, named, h⟩ := Option.bind_eq_some_iff.1 h
    obtain ⟨others, reads, -⟩ := Option.bind_eq_some_iff.1 h
    obtain ⟨key, same, -⟩ := Option.map_eq_some_iff.1 named
    exact List.forall_mem_cons.2 ⟨by simp [same], ih reads⟩

theorem keyed?_eq_none (unnamed : ¬Named members) : keyed? members = none :=
  Option.eq_none_iff_forall_not_mem.2 fun _ h => unnamed (named_of_keyed? h)

theorem filterMap_keyed (keyed : List (String × Document)) :
    (keyed.map fun member => (some member.1, member.2)).filterMap (·.1) = keyed.map (·.1) := by
  rw [List.filterMap_map]
  exact congrFun List.filterMap_eq_map _

/-- A field of an object without repeated keys is its member, if it has one. -/
theorem field?_eq_member? {keyed : List (String × Document)}
    (distinct : (keyed.map (·.1)).Nodup) (name : String) :
    field? keyed name =
      some (member? (keyed.map fun member => (some member.1, member.2)) name) := by
  have found (value : Document) : member? (keyed.map fun member => (some member.1, member.2)) name =
      some value ↔ (some name, value) ∈ keyed.map fun member => (some member.1, member.2) :=
    member?_eq_some_iff ((filterMap_keyed keyed).symm ▸ distinct)
  cases h : member? (keyed.map fun member => (some member.1, member.2)) name with
  | some value =>
    obtain ⟨member, mem, same⟩ := List.mem_map.1 ((found value).1 h)
    obtain ⟨rfl, rfl⟩ : member.1 = name ∧ member.2 = value := by simpa using same
    exact field?_of_mem distinct mem
  | none =>
    have nothing : keyed.filter (·.1 == name) = [] := by
      refine List.filter_eq_nil_iff.2 fun member mem same => ?_
      have here := (found member.2).2 (List.mem_map.2 ⟨member, mem, by simpa using same⟩)
      rw [h] at here
      cases here
    rw [field?, nothing]

theorem mapM_field? {keyed : List (String × Document)} (distinct : (keyed.map (·.1)).Nodup)
    (fields : List Field) : (fields.map (·.name)).mapM (field? keyed) =
      some (fields.map fun field =>
        member? (keyed.map fun member => (some member.1, member.2)) field.name) := by
  induction fields with
  | nil => rfl
  | cons field rest ih => simp [field?_eq_member? distinct, ih]

/-- The fields that a document presents are read. -/
theorem fields?_of_presents (presents : Presents fields document values)
    (all : values.length = fields.length) (enough : least ≤ fields.length)
    (distinct : document.Distinct) :
    fields? (fields.map (·.name)) least depth document =
      if depth = 0 then none else some (values, depth - 1) := by
  cases presents with
  | object named =>
    obtain ⟨keyed, rfl⟩ := exists_of_named named
    have keys := (eachObject_object.1 distinct).1
    rw [filterMap_keyed] at keys
    rw [fields?]
    split
    · rfl
    · rw [keyed?_map, Option.bind_eq_bind, Option.bind_some, mapM_field? keys]
      rfl
  | @array items =>
    have length : items.length = fields.length := by simpa using all
    rw [fields?]
    by_cases depth = 0
    · simp [*]
    · simp [*, Nat.not_lt.2 enough]

/-- The result of reading a record in two documents : the same fields, with the same budget left. -/
def ReadAlike (fields : List Field) (depth : Nat) (read other : List (Option Document) × Nat) :
    Prop :=
  Each Field.Agrees fields read.1 other.1 ∧ read.2 = depth - 1 ∧ other.2 = depth - 1

theorem Each.length_eq {related : Field → Option Document → Option Document → Prop}
    (each : Each related fields values values') :
    values.length = fields.length ∧ values'.length = fields.length := by
  induction each with
  | nil => exact ⟨rfl, rfl⟩
  | cons _ _ ih => exact ⟨congrArg (· + 1) ih.1, congrArg (· + 1) ih.2⟩

theorem fields?_presented (presents : Presents fields document values)
    (presents' : Presents fields other values') (agree : Each Field.Agrees fields values values')
    (enough : least ≤ fields.length) (distinct : document.Distinct) (distinct' : other.Distinct) :
    Option.Rel (ReadAlike fields depth) (fields? (fields.map (·.name)) least depth document)
      (fields? (fields.map (·.name)) least depth other) := by
  rw [fields?_of_presents presents agree.length_eq.1 enough distinct,
    fields?_of_presents presents' agree.length_eq.2 enough distinct']
  split
  · exact .none
  · exact .some ⟨agree, rfl, rfl⟩

/-- Items one by one for the fields, and nothing for the fields behind the last item. -/
theorem each_of_items {items others : List Document} (same : items.length = others.length)
    (few : items.length ≤ fields.length) (agree : ∀ part ∈ fields.zip (items.zip others),
      part.1.Agrees (some part.2.1) (some part.2.2)) :
    Each Field.Agrees fields
      (items.map some ++ List.replicate (fields.length - items.length) none)
      (others.map some ++ List.replicate (fields.length - others.length) none) := by
  induction fields generalizing items others with
  | nil =>
    obtain rfl := List.length_eq_zero_iff.1 (Nat.le_zero.1 few)
    obtain rfl := List.length_eq_zero_iff.1 same.symm
    exact .nil
  | cons field rest ih =>
    cases items with
    | nil =>
      obtain rfl := List.length_eq_zero_iff.1 same.symm
      exact .cons .missing (@ih [] [] rfl (Nat.zero_le _) (by simp))
    | cons item items =>
      cases others with
      | nil => cases same
      | cons other others =>
        rw [List.zip_cons_cons, List.zip_cons_cons, List.forall_mem_cons] at agree
        simpa using Each.cons agree.1 (ih (Nat.succ.inj same) (Nat.le_of_succ_le_succ few) agree.2)

theorem fields?_arrays {items others : List Document} (same : items.length = others.length)
    (agree : ∀ part ∈ fields.zip (items.zip others),
      part.1.Agrees (some part.2.1) (some part.2.2)) :
    Option.Rel (ReadAlike fields depth) (fields? (fields.map (·.name)) least depth (.array items))
      (fields? (fields.map (·.name)) least depth (.array others)) := by
  rw [fields?, fields?, ← same, List.length_map]
  split
  · exact .none
  · rename_i fits
    refine .some ⟨?_, rfl, rfl⟩
    have few : items.length ≤ fields.length := by omega
    simpa [same] using each_of_items same few agree

theorem fields?_unnamed (unnamed : ¬Named members) (names : List String) :
    fields? names least depth (.object members) = none := by
  rw [fields?, keyed?_eq_none unnamed]
  split <;> rfl

theorem named_of_reordered (each : List.Forall₂ ReorderedMember members middle)
    (order : middle.Perm others) : Named members ↔ Named others := by
  have same : Named members ↔ Named middle := by
    clear order
    induction each with
    | nil => rfl
    | cons first _ ih =>
      rw [Named, List.forall_mem_cons, first.1, Named, List.forall_mem_cons]
      exact and_congr_right' ih
  exact same.trans (forall_congr' fun member => imp_congr_left order.mem_iff)

theorem Field.Agrees.of_rel {field : Field} {value other : Option Document}
    (same : Option.Rel Reordered value other) : field.Agrees value other := by
  cases same with
  | none => exact .missing
  | some same => exact .reordered same

/-- Members that are reordered give all fields alike. -/
theorem each_of_members (same : ∀ name, Option.Rel Reordered (member? members name)
    (member? others name)) (fields : List Field) :
    Each Field.Agrees fields (fields.map fun field => member? members field.name)
      (fields.map fun field => member? others field.name) := by
  induction fields with
  | nil => exact .nil
  | cons field rest ih => exact .cons (.of_rel (same field.name)) ih

theorem fields?_reordered (same : document.Reordered other) (enough : least ≤ fields.length)
    (distinct : document.Distinct) (distinct' : other.Distinct) :
    Option.Rel (ReadAlike fields depth) (fields? (fields.map (·.name)) least depth document)
      (fields? (fields.map (·.name)) least depth other) := by
  cases same with
  | null | bool | number | string => exact .none
  | array each =>
    have each := reorderedItems_iff.1 each
    refine fields?_arrays each.length_eq fun part mem => ?_
    exact .reordered (List.forall₂_iff_zip.1 each |>.2 (List.of_mem_zip mem).2)
  | @object members middle others each order =>
    have each := reorderedMembers_iff.1 each
    by_cases named : Named members
    · have named' := (named_of_reordered each order).1 named
      have keys := (order.filterMap (·.1)).nodup_iff.2 (eachObject_object.1 distinct').1
      exact fields?_presented (.object named) (.object named')
        (each_of_members (fun name => member?_perm order keys ▸ member?_forall₂ each name) fields)
        enough distinct distinct'
    · rw [fields?_unnamed named, fields?_unnamed (named ∘ (named_of_reordered each order).2)]
      exact .none

/-- A record is read alike, however it is laid out. -/
theorem fields?_rearranged (depth : Nat) (h : Rearranged fields document other)
    (enough : least ≤ fields.length) (distinct : document.Distinct) (distinct' : other.Distinct) :
    Option.Rel (ReadAlike fields depth) (fields? (fields.map (·.name)) least depth document)
      (fields? (fields.map (·.name)) least depth other) := by
  cases h with
  | reordered same => exact fields?_reordered same enough distinct distinct'
  | presented presents presents' agree =>
    exact fields?_presented presents presents' agree enough distinct distinct'
  | arrays same agree => exact fields?_arrays same agree
  | unread unnamed unnamed' =>
    rw [fields?_unnamed unnamed, fields?_unnamed unnamed']
    exact .none

/-! ## What is made of the fields -/

/-- The fields of a document without repeated keys have none either. -/
theorem distinct_of_fields? {rest : Nat}
    (h : fields? names least depth document = some (values, rest)) (distinct : document.Distinct) :
    ∀ value, some value ∈ values → value.Distinct := by
  intro value mem
  unfold fields? at h
  split at h
  · rename_i items
    split at h
    · cases h
    · obtain ⟨rfl, -⟩ := Prod.mk.inj (Option.some.inj h)
      refine eachObject_array.1 distinct value ?_
      simpa using mem
  · split at h
    · cases h
    · obtain ⟨keyed, named, h⟩ := Option.bind_eq_some_iff.1 h
      obtain ⟨found, reads, h⟩ := Option.bind_eq_some_iff.1 h
      obtain ⟨rfl, -⟩ := Prod.mk.inj (Option.some.inj h)
      obtain ⟨name, -, read⟩ := exists_of_mem_mapM reads mem
      obtain ⟨keyed', rfl⟩ := exists_of_named (named_of_keyed? named)
      obtain rfl := Option.some.inj ((keyed?_map keyed').symm.trans named)
      obtain ⟨keys, each⟩ := eachObject_object.1 distinct
      rw [field?_eq_member? (filterMap_keyed keyed' ▸ keys)] at read
      exact each _ ((member?_eq_some_iff keys).1 (Option.some.inj read))
  · cases h

theorem Each.alike (agree : Each Field.Agrees fields values values')
    (distinct : ∀ value, some value ∈ values → value.Distinct)
    (distinct' : ∀ value, some value ∈ values' → value.Distinct) :
    Each Field.Alike fields values values' := by
  induction agree with
  | nil => exact .nil
  | cons first _ ih =>
    refine .cons ⟨first, fun value mem => distinct value ?_, fun value mem => distinct' value ?_⟩
      (ih (fun value mem => distinct value (List.mem_cons_of_mem _ mem))
        fun value mem => distinct' value (List.mem_cons_of_mem _ mem))
    · exact mem ▸ List.mem_cons_self
    · exact mem ▸ List.mem_cons_self

/-- What is made of the fields of a record does not depend on how the record is laid out, if it
does not tell fields apart that are given alike. -/
theorem bind_fields?_rearranged {α : Type} {build : List (Option Document) × Nat → Option α}
    (named : fields.map (·.name) = names) (h : Rearranged fields document other)
    (enough : least ≤ fields.length) (distinct : document.Distinct) (distinct' : other.Distinct)
    (built : ∀ values values', Each Field.Alike fields values values' →
      build (values, depth - 1) = build (values', depth - 1)) :
    (fields? names least depth document).bind build =
      (fields? names least depth other).bind build := by
  subst named
  have alike := fields?_rearranged depth h enough distinct distinct'
  generalize read : fields? _ least depth document = result at alike ⊢
  generalize read' : fields? _ least depth other = result' at alike ⊢
  cases alike with
  | none => rfl
  | @some first second same =>
    obtain ⟨values, rest⟩ := first
    obtain ⟨values', rest'⟩ := second
    obtain ⟨agree, rfl, rfl⟩ := same
    exact built values values'
      (agree.alike (distinct_of_fields? read distinct) (distinct_of_fields? read' distinct'))

end

/-! ## Kinds of fields -/

/-- A field that a record must have. -/
def Field.required (name : String) : Field :=
  { name }

/-- A field that may be missing or null. -/
def Field.optional (name : String) : Field :=
  { name, absent := (· = .null) }

section

variable {value other : Option Document} {name : String}

theorem Field.Alike.required (alike : (Field.required name).Alike value other) :
    (value = none ∧ other = none) ∨ ∃ document document', value = some document ∧
      other = some document' ∧ document.Reordered document' ∧ document.Distinct ∧
        document'.Distinct := by
  obtain ⟨agrees, distinct, distinct'⟩ := alike
  cases agrees with
  | missing => exact Or.inl ⟨rfl, rfl⟩
  | reordered same => exact Or.inr ⟨_, _, rfl, rfl, same, distinct _ rfl, distinct' _ rfl⟩
  | varied same => exact False.elim same
  | supplied absent | omitted absent => exact False.elim absent

theorem optional?_of_ne_null {α : Type} {decode? : Document → Option α} {document : Document}
    (present : document ≠ .null) :
    optional? decode? (some document) = (decode? document).map some := by
  unfold optional?
  split
  · contradiction
  · rename_i null
    exact absurd (Option.some.inj null) present
  · rename_i same
    rw [Option.some.inj same]

theorem Rearranged.eq_null_iff {fields : List Field} {document document' : Document}
    (h : Rearranged fields document document') : document = .null ↔ document' = .null := by
  cases h with
  | reordered same => exact same.eq_null_iff
  | presented presents presents' => cases presents <;> cases presents' <;> simp
  | arrays | unread => simp

/-- A field that may be missing or null is read alike, if its values are. -/
theorem Field.Alike.optional?_eq {α : Type} {field : Field} (alike : field.Alike value other)
    (decode? : Document → Option α) (absent : ∀ document, field.absent document → document = .null)
    (null : ∀ document document', field.varies document document' →
      (document = .null ↔ document' = .null))
    (same : ∀ document document', document.Reordered document' ∨ field.varies document document' →
      document.Distinct → document'.Distinct → decode? document = decode? document') :
    optional? decode? value = optional? decode? other := by
  obtain ⟨agrees, distinct, distinct'⟩ := alike
  have given {document document' : Document} (null : document = .null ↔ document' = .null)
      (same : decode? document = decode? document') :
      optional? decode? (some document) = optional? decode? (some document') := by
    by_cases missing : document = .null
    · rw [missing, null.1 missing]
    · rw [optional?_of_ne_null missing, optional?_of_ne_null (missing ∘ null.2), same]
  cases agrees with
  | missing => rfl
  | reordered h =>
    exact given h.eq_null_iff (same _ _ (Or.inl h) (distinct _ rfl) (distinct' _ rfl))
  | varied h => exact given (null _ _ h) (same _ _ (Or.inr h) (distinct _ rfl) (distinct' _ rfl))
  | supplied left | omitted left =>
    rw [absent _ left]
    rfl

theorem Field.Alike.optional?_text?_eq (alike : (Field.optional name).Alike value other) :
    optional? text? value = optional? text? other :=
  alike.optional?_eq text? (fun _ left => left) (fun _ _ => False.elim) fun _ _ same _ _ =>
    same.elim (·.text?_eq) False.elim

end

end Document

end Feedkeeper.Json
