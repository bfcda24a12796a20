import Feedkeeper.Proofs.Json.Value
import Mathlib.Data.List.Forall2
import Mathlib.Data.List.Sort

/-!
# The order of members

Two documents are the same up to the order in which objects have their members
(`Document.Reordered`). If no object has two members under one key (`Document.Distinct`), both are
read as the same free JSON (`Document.free?_reordered`), because members are sorted by their keys
and keys that are distinct leave no choice (`Json.sortMembers_eq_of_perm`). Free JSON that was read
is written with the members of its objects in ascending order (`Document.ordered_of_free?`).
-/

namespace Feedkeeper.Json

/-! ## Members in any order -/

section

variable {key : String} {value : Json} {members others : List (String × Json)}

theorem insertMember_perm (new : key ∉ members.map (·.1)) :
    (insertMember key value members).Perm ((key, value) :: members) := by
  induction members with
  | nil => exact .refl _
  | cons head rest ih =>
    rw [List.map_cons, List.mem_cons, not_or] at new
    rw [insertMember, if_neg new.1]
    split
    · exact .refl _
    · exact ((ih new.2).cons head).trans (.swap _ _ _)

/-- Members with distinct keys are all kept. -/
theorem sortMembers_perm (distinct : (members.map (·.1)).Nodup) :
    (sortMembers members).Perm members := by
  suffices ∀ sorted : List (String × Json), ((sorted ++ members).map (·.1)).Nodup →
      (members.foldl (fun sorted member => insertMember member.1 member.2 sorted) sorted).Perm
        (sorted ++ members) from this [] distinct
  clear distinct
  induction members with
  | nil => exact fun sorted _ => by simp
  | cons member rest ih =>
    intro sorted distinct
    have moved : (sorted ++ member :: rest).Perm (member :: sorted ++ rest) := List.perm_middle
    have new : member.1 ∉ sorted.map (·.1) := by
      have head := (moved.map (·.1)).nodup_iff.1 distinct
      rw [List.cons_append, List.map_cons, List.nodup_cons, List.map_append] at head
      exact fun mem => head.1 (List.mem_append_left _ mem)
    have put : (insertMember member.1 member.2 sorted ++ rest).Perm (member :: sorted ++ rest) :=
      (insertMember_perm new).append_right rest
    exact (ih _ (((put.trans moved.symm).map (·.1)).nodup_iff.2 distinct)).trans
      (put.trans moved.symm)

/-- Members with distinct keys are sorted alike, in whatever order they are given. -/
theorem sortMembers_eq_of_perm (perm : members.Perm others)
    (distinct : (members.map (·.1)).Nodup) : sortMembers members = sortMembers others := by
  have same : (sortMembers members).Perm (sortMembers others) :=
    (sortMembers_perm distinct).trans
      (perm.trans (sortMembers_perm ((perm.map (·.1)).nodup_iff.1 distinct)).symm)
  refine same.eq_of_pairwise (fun first second _ _ before behind => ?_)
    (ascending_sortMembers members) (ascending_sortMembers others)
  exact absurd behind (lt_asymm before)

end

namespace Document

/-! ## The keys of objects -/

mutual

/-- The keys of one object satisfy the condition, at every level. A key that is no text does not
count. -/
def EachObject (condition : List String → Prop) : Document → Prop
  | .null | .bool _ | .number _ | .string _ => True
  | .array items => EachObjectItems condition items
  | .object members => condition (members.filterMap (·.1)) ∧ EachObjectMembers condition members

/-- The same of all items. -/
def EachObjectItems (condition : List String → Prop) : List Document → Prop
  | [] => True
  | item :: rest => item.EachObject condition ∧ EachObjectItems condition rest

/-- The same of the values of all members. -/
def EachObjectMembers (condition : List String → Prop) : List (Option String × Document) → Prop
  | [] => True
  | member :: rest => member.2.EachObject condition ∧ EachObjectMembers condition rest

end

/-- No text is the key of two members of an object, at any level. -/
def Distinct (document : Document) : Prop :=
  document.EachObject List.Nodup

/-- Every object has its members in ascending order of their keys. -/
def Ordered (document : Document) : Prop :=
  document.EachObject (List.Pairwise (· < ·))

variable {condition : List String → Prop} {items : List Document} {members : List Member}

theorem eachObject_array :
    (Document.array items).EachObject condition ↔ ∀ item ∈ items, item.EachObject condition := by
  rw [EachObject]
  induction items with
  | nil => simp [EachObjectItems]
  | cons item rest ih => rw [EachObjectItems, ih, List.forall_mem_cons]

theorem eachObject_object : (Document.object members).EachObject condition ↔
    condition (members.filterMap (·.1)) ∧ ∀ member ∈ members, member.2.EachObject condition := by
  have each : EachObjectMembers condition members ↔
      ∀ member ∈ members, member.2.EachObject condition := by
    induction members with
    | nil => simp [EachObjectMembers]
    | cons member rest ih => rw [EachObjectMembers, ih, List.forall_mem_cons]
  rw [EachObject, each]

/-! ## Reordering -/

mutual

/-- The second document is the first, with the members of its objects in any other order. -/
inductive Reordered : Document → Document → Prop
  | null : Reordered .null .null
  | bool (value : Bool) : Reordered (.bool value) (.bool value)
  | number (numeral : Numeral) : Reordered (.number numeral) (.number numeral)
  | string (text : Option String) : Reordered (.string text) (.string text)
  | array {items others : List Document} (each : ReorderedItems items others) :
    Reordered (.array items) (.array others)
  | object {members middle others : List (Option String × Document)}
    (each : ReorderedMembers members middle) (order : middle.Perm others) :
    Reordered (.object members) (.object others)

/-- The items one by one. -/
inductive ReorderedItems : List Document → List Document → Prop
  | nil : ReorderedItems [] []
  | cons {item other : Document} {items others : List Document} (first : Reordered item other)
    (rest : ReorderedItems items others) : ReorderedItems (item :: items) (other :: others)

/-- The values of the members one by one, under the same keys. -/
inductive ReorderedMembers :
    List (Option String × Document) → List (Option String × Document) → Prop
  | nil : ReorderedMembers [] []
  | cons {key : Option String} {value other : Document}
    {members others : List (Option String × Document)} (first : Reordered value other)
    (rest : ReorderedMembers members others) :
    ReorderedMembers ((key, value) :: members) ((key, other) :: others)

end

mutual

/-- The members may stay in their order. -/
theorem Reordered.refl : ∀ document : Document, document.Reordered document
  | .null => .null
  | .bool value => .bool value
  | .number numeral => .number numeral
  | .string text => .string text
  | .array items => .array (ReorderedItems.refl items)
  | .object members => .object (ReorderedMembers.refl members) (.refl members)

theorem ReorderedItems.refl : ∀ items : List Document, ReorderedItems items items
  | [] => .nil
  | item :: rest => .cons (Reordered.refl item) (ReorderedItems.refl rest)

theorem ReorderedMembers.refl : ∀ members : List Member, ReorderedMembers members members
  | [] => .nil
  | member :: rest => .cons (Reordered.refl member.2) (ReorderedMembers.refl rest)

end

/-- The members have the same key, and values that are reordered. -/
def ReorderedMember (member other : Member) : Prop :=
  member.1 = other.1 ∧ member.2.Reordered other.2

theorem reorderedItems_iff {others : List Document} :
    ReorderedItems items others ↔ List.Forall₂ Reordered items others := by
  constructor
  · intro h
    induction items generalizing others with
    | nil => cases h; exact .nil
    | cons item items ih =>
      cases h with
      | cons first rest => exact .cons first (ih rest)
  · intro h
    induction h with
    | nil => exact .nil
    | cons first _ ih => exact .cons first ih

theorem reorderedMembers_iff {others : List Member} :
    ReorderedMembers members others ↔ List.Forall₂ ReorderedMember members others := by
  constructor
  · intro h
    induction members generalizing others with
    | nil => cases h; exact .nil
    | cons member members ih =>
      cases h with
      | cons first rest => exact .cons ⟨rfl, first⟩ (ih rest)
  · intro h
    induction h with
    | nil => exact .nil
    | @cons member other _ _ first _ ih =>
      obtain ⟨key, value⟩ := member
      obtain ⟨rfl, first⟩ := first
      exact .cons first ih

section

variable {α β : Type} {related : α → α → Prop} {read read' : α → Option β}
  {sources middle others : List α}

/-- What is read of things in another order are the same values in another order. -/
theorem mapM_perm (order : sources.Perm others) :
    Option.Rel List.Perm (sources.mapM read) (others.mapM read) := by
  induction order with
  | nil => exact .some .nil
  | cons source _ ih =>
    rw [List.mapM_cons, List.mapM_cons]
    generalize List.mapM read _ = values at ih ⊢
    generalize List.mapM read _ = others at ih ⊢
    cases read source with
    | none => exact .none
    | some value =>
      cases ih with
      | none => exact .none
      | some perm => exact .some (perm.cons value)
  | swap first second rest =>
    simp only [List.mapM_cons]
    cases read first <;> cases read second <;> cases rest.mapM read
    case some.some.some => exact .some (.swap _ _ _)
    all_goals exact .none
  | trans _ _ ih ih' =>
    generalize List.mapM read _ = values at ih
    generalize List.mapM read _ = middle at ih ih'
    generalize List.mapM read _ = others at ih'
    cases ih with
    | none => exact ih'
    | some perm =>
      cases ih' with
      | some perm' => exact .some (perm.trans perm')

/-- Things that are read alike one by one are read alike together. -/
theorem mapM_forall₂ (each : List.Forall₂ related sources others)
    (same : ∀ source ∈ sources, ∀ other ∈ others, related source other →
      read source = read' other) :
    sources.mapM read = others.mapM read' := by
  induction each with
  | nil => rfl
  | cons first _ ih =>
    rw [List.mapM_cons, List.mapM_cons,
      same _ List.mem_cons_self _ List.mem_cons_self first,
      ih fun source mem other mem' => same source (List.mem_cons_of_mem _ mem) other
        (List.mem_cons_of_mem _ mem')]

end

/-! ## Free JSON -/

/-- A member of an object, read as free JSON. -/
def freeMember? (depth : Nat) (member : Member) : Option (String × Json) :=
  member.1.bind fun key => (free? depth member.2).map (key, ·)

theorem freeMembers?_eq_mapM (depth : Nat) (members : List Member) :
    freeMembers? depth members = members.mapM (freeMember? depth) := by
  induction members with
  | nil => rfl
  | cons member rest ih =>
    rw [freeMembers?, ih, List.mapM_cons, freeMember?]
    cases member.1 <;> cases free? depth member.2 <;> cases rest.mapM (freeMember? depth) <;> rfl

/-- Members keep their keys. -/
theorem keys_of_freeMembers? {depth : Nat} {values : List (String × Json)}
    (h : freeMembers? depth members = some values) :
    members.filterMap (·.1) = values.map (·.1) := by
  induction members generalizing values with
  | nil =>
    obtain rfl : [] = values := by simpa [freeMembers?] using h
    rfl
  | cons member rest ih =>
    rw [freeMembers?] at h
    split at h
    · rename_i key value others same _ reads
      obtain rfl := Option.some.inj h
      rw [List.filterMap_cons_some same, ih reads, List.map_cons]
    · cases h

/-- Members that are read in another order are sorted alike. -/
theorem sortMembers_freeMembers?_perm {depth : Nat} {others : List Member}
    (order : members.Perm others) (distinct : (members.filterMap (·.1)).Nodup) :
    (freeMembers? depth members).map sortMembers =
      (freeMembers? depth others).map sortMembers := by
  have read : Option.Rel List.Perm (freeMembers? depth members) (freeMembers? depth others) := by
    rw [freeMembers?_eq_mapM, freeMembers?_eq_mapM]
    exact mapM_perm order
  generalize h : freeMembers? depth members = values at read ⊢
  generalize freeMembers? depth others = values' at read ⊢
  cases read with
  | none => rfl
  | some perm =>
    rw [keys_of_freeMembers? h] at distinct
    rw [Option.map_some, Option.map_some, sortMembers_eq_of_perm perm distinct]

/-- The object of the members that were read. -/
theorem free?_object (depth : Nat) (members : List Member) :
    free? (depth + 1) (.object members) =
      ((freeMembers? depth members).map sortMembers).map .object := by
  rw [free?, Option.map_map]
  rfl

mutual

/-- Free JSON does not depend on the order of members. -/
theorem free?_reordered : ∀ (document : Document) {depth : Nat} {other : Document},
    document.Reordered other → document.Distinct → other.Distinct →
    free? depth document = free? depth other
  | .null, _, _, h, _, _ | .bool _, _, _, h, _, _ | .number _, _, _, h, _, _
  | .string _, _, _, h, _, _ => by
    cases h
    rfl
  | .array items, depth, _, .array each, distinct, distinct' => by
    cases depth with
    | zero => simp [free?]
    | succ depth =>
      rw [free?, free?, freeItems?_reordered items (reorderedItems_iff.1 each)
        (eachObject_array.1 distinct) (eachObject_array.1 distinct')]
  | .object members, depth, _, .object each order, distinct, distinct' => by
    cases depth with
    | zero => simp [free?]
    | succ depth =>
      obtain ⟨keys, values⟩ := eachObject_object.1 distinct'
      rw [free?_object, free?_object, freeMembers?_reordered members (reorderedMembers_iff.1 each)
        (eachObject_object.1 distinct).2 fun member mem => values member (order.subset mem),
        sortMembers_freeMembers?_perm order ((order.filterMap (·.1)).nodup_iff.2 keys)]

theorem freeItems?_reordered : ∀ (items : List Document) {depth : Nat} {others : List Document},
    List.Forall₂ Reordered items others → (∀ item ∈ items, item.Distinct) →
    (∀ item ∈ others, item.Distinct) → freeItems? depth items = freeItems? depth others
  | [], _, _, .nil, _, _ => rfl
  | item :: items, depth, _, .cons first rest, distinct, distinct' => by
    obtain ⟨one, all⟩ := List.forall_mem_cons.1 distinct
    obtain ⟨one', all'⟩ := List.forall_mem_cons.1 distinct'
    rw [freeItems?, freeItems?, free?_reordered item first one one',
      freeItems?_reordered items rest all all']

theorem freeMembers?_reordered : ∀ (members : List Member) {depth : Nat} {others : List Member},
    List.Forall₂ ReorderedMember members others → (∀ member ∈ members, member.2.Distinct) →
    (∀ member ∈ others, member.2.Distinct) →
    freeMembers? depth members = freeMembers? depth others
  | [], _, _, .nil, _, _ => rfl
  | member :: members, depth, _, .cons first rest, distinct, distinct' => by
    obtain ⟨one, all⟩ := List.forall_mem_cons.1 distinct
    obtain ⟨one', all'⟩ := List.forall_mem_cons.1 distinct'
    rw [freeMembers?, freeMembers?, first.1, free?_reordered member.2 first.2 one one',
      freeMembers?_reordered members rest all all']

end

/-! ## What is written -/

theorem ofItems_eq_map (values : List Json) : ofItems values = values.map ofJson := by
  induction values with
  | nil => rfl
  | cons value rest ih => rw [ofItems, ih, List.map_cons]

theorem ofMembers_eq_map (values : List (String × Json)) :
    ofMembers values = values.map fun member => (some member.1, ofJson member.2) := by
  induction values with
  | nil => rfl
  | cons value rest ih => rw [ofMembers, ih, List.map_cons]

theorem eachObject_ofItems {values : List Json} : (∀ item ∈ ofItems values,
    item.EachObject condition) ↔ ∀ value ∈ values, (ofJson value).EachObject condition := by
  rw [ofItems_eq_map, List.forall_mem_map]

/-- Members in ascending order are written in it. -/
theorem ordered_object {values : List (String × Json)} (ascending : Ascending values)
    (each : ∀ value ∈ values, (ofJson value.2).Ordered) :
    (Document.object (ofMembers values)).Ordered := by
  have keys : (ofMembers values).filterMap (·.1) = values.map (·.1) := by
    rw [ofMembers_eq_map, List.filterMap_map]
    exact congrFun List.filterMap_eq_map _
  refine eachObject_object.2 ⟨?_, ?_⟩
  · rw [keys]
    exact List.pairwise_map.2 ascending
  · rw [ofMembers_eq_map, List.forall_mem_map]
    exact each

mutual

/-- Free JSON that was read is written with the members of its objects in ascending order. -/
theorem ordered_of_free? : ∀ {depth : Nat} (document : Document) {value : Json},
    free? depth document = some value → (ofJson value).Ordered
  | _, .null, value, h | _, .bool _, value, h => by
    simp only [free?, Option.some.injEq] at h
    subst h
    simp [Ordered, ofJson, EachObject]
  | _, .number numeral, value, h => by
    obtain ⟨number, -, rfl⟩ := Option.map_eq_some_iff.1 (by simpa [free?] using h)
    rw [ofJson]
    cases Numeral.ofNumber? number <;> simp [Ordered, EachObject]
  | _, .string text, value, h => by
    obtain ⟨text, -, rfl⟩ := Option.map_eq_some_iff.1 (by simpa [free?] using h)
    simp [Ordered, ofJson, EachObject]
  | 0, .array _, _, h | 0, .object _, _, h => by simp [free?] at h
  | depth + 1, .array items, value, h => by
    obtain ⟨values, read, rfl⟩ := Option.map_eq_some_iff.1 (by simpa [free?] using h)
    rw [ofJson]
    exact eachObject_array.2 (eachObject_ofItems.2 (ordered_of_freeItems? items read))
  | depth + 1, .object members, value, h => by
    obtain ⟨values, read, rfl⟩ := Option.map_eq_some_iff.1 (by simpa [free?] using h)
    rw [Json.ofMembers, ofJson]
    exact ordered_object (ascending_sortMembers values) fun member mem =>
      ordered_of_freeMembers? members read member (mem_of_mem_sortMembers mem)

theorem ordered_of_freeItems? : ∀ {depth : Nat} (items : List Document) {values : List Json},
    freeItems? depth items = some values → ∀ value ∈ values, (ofJson value).Ordered
  | _, [], values, h => by
    obtain rfl : [] = values := by simpa [freeItems?] using h
    exact nofun
  | depth, item :: rest, values, h => by
    rw [freeItems?] at h
    split at h
    · rename_i first others read reads
      obtain rfl := Option.some.inj h
      exact List.forall_mem_cons.2 ⟨ordered_of_free? item read, ordered_of_freeItems? rest reads⟩
    · cases h

theorem ordered_of_freeMembers? : ∀ {depth : Nat} (members : List Member)
    {values : List (String × Json)}, freeMembers? depth members = some values →
    ∀ value ∈ values, (ofJson value.2).Ordered
  | _, [], values, h => by
    obtain rfl : [] = values := by simpa [freeMembers?] using h
    exact nofun
  | depth, member :: rest, values, h => by
    rw [freeMembers?] at h
    split at h
    · rename_i key value others _ read reads
      obtain rfl := Option.some.inj h
      exact List.forall_mem_cons.2
        ⟨ordered_of_free? member.2 read, ordered_of_freeMembers? rest reads⟩
    · cases h

end

/-! ## Plain values -/

section

variable {document other : Document}

theorem Reordered.text?_eq (h : document.Reordered other) : document.text? = other.text? := by
  cases h <;> rfl

theorem Reordered.flag?_eq (h : document.Reordered other) : document.flag? = other.flag? := by
  cases h <;> rfl

theorem Reordered.word?_eq (h : document.Reordered other) : document.word? = other.word? := by
  cases h <;> rfl

theorem Reordered.eq_null_iff (h : document.Reordered other) :
    document = .null ↔ other = .null := by
  cases h <;> simp

/-- Only an object with one member may be a choice. -/
theorem choice?_object_eq_none {α : Type} (parse? : String → Option α) (depth : Nat)
    (several : members.length ≠ 1) : (Document.object members).choice? parse? depth = none := by
  unfold choice?
  split
  · contradiction
  · rename_i same
    obtain rfl := Document.object.inj same
    exact absurd rfl several
  · rfl

theorem Reordered.choice?_eq {α : Type} (h : document.Reordered other) (parse? : String → Option α)
    (depth : Nat) : document.choice? parse? depth = other.choice? parse? depth := by
  cases h with
  | @object members middle others each order =>
    have same : members.length = others.length :=
      (reorderedMembers_iff.1 each).length_eq.trans order.length_eq
    by_cases single : members.length = 1
    · obtain ⟨member, rfl⟩ := List.length_eq_one_iff.1 single
      cases each with
      | cons first rest =>
        cases rest
        obtain rfl := List.singleton_perm.1 order
        cases first <;> rfl
    · rw [choice?_object_eq_none parse? depth single,
        choice?_object_eq_none parse? depth (same ▸ single)]
  | _ => rfl

theorem Reordered.texts?_eq (h : document.Reordered other) (depth : Nat) :
    document.texts? depth = other.texts? depth := by
  cases h with
  | array each =>
    rw [texts?, texts?, mapM_forall₂ (reorderedItems_iff.1 each) fun _ _ _ _ h => h.text?_eq]
  | _ => rfl

end

end Document

end Feedkeeper.Json
