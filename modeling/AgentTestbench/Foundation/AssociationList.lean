import Mathlib

/-! # Association lists

Insertion-ordered dictionaries as lists of pairs: lookup, assignment, deletion,
sorting by key, and grouping. Nothing here mentions a particular key or value type.
-/

namespace AssociationList

variable {Key : Type u} {Value : Type v} {Other : Type w}

@[reducible] def keys (members : List (Key × Value)) : List Key :=
  members.map Prod.fst

/-! ## Assignment and deletion -/

/-- Assign a key, in place when it is present and at the end otherwise. -/
def insert [DecidableEq Key] (key : Key) (value : Value) :
    List (Key × Value) → List (Key × Value)
  | [] => [(key, value)]
  | (other, old) :: rest =>
      if other = key then (key, value) :: rest else (other, old) :: insert key value rest

def erase [DecidableEq Key] (key : Key) (members : List (Key × Value)) :
    List (Key × Value) :=
  members.filter fun member => member.1 ≠ key

section Lookup

variable [DecidableEq Key]

def lookup (key : Key) : List (Key × Value) → Option Value
  | [] => none
  | (other, value) :: rest => if key = other then some value else lookup key rest

@[simp] theorem lookup_nil (key : Key) : lookup key ([] : List (Key × Value)) = none := rfl

theorem lookup_cons (key other : Key) (value : Value) (rest : List (Key × Value)) :
    lookup key ((other, value) :: rest) =
      if key = other then some value else lookup key rest := rfl

@[simp] theorem lookup_cons_self (key : Key) (value : Value) (rest : List (Key × Value)) :
    lookup key ((key, value) :: rest) = some value := if_pos rfl

@[simp] theorem lookup_insert_self (key : Key) (value : Value)
    (members : List (Key × Value)) : lookup key (insert key value members) = some value := by
  induction members with
  | nil => simp [insert]
  | cons member rest induction =>
      rcases member with ⟨other, old⟩
      by_cases equal : other = key
      · simp [insert, equal]
      · rw [insert, if_neg equal, lookup_cons, if_neg (Ne.symm equal), induction]

theorem lookup_insert_of_ne {key other : Key} (different : other ≠ key) (value : Value)
    (members : List (Key × Value)) :
    lookup other (insert key value members) = lookup other members := by
  induction members with
  | nil => simp [insert, lookup_cons, different]
  | cons member rest induction =>
      rcases member with ⟨present, old⟩
      by_cases equal : present = key
      · subst equal
        simp [insert, lookup_cons, different]
      · rw [insert, if_neg equal, lookup_cons, lookup_cons, induction]

theorem lookup_eq_none_iff {key : Key} {members : List (Key × Value)} :
    lookup key members = none ↔ key ∉ keys members := by
  induction members with
  | nil => simp
  | cons member rest induction =>
      rcases member with ⟨other, value⟩
      rw [lookup_cons, keys, List.map_cons, List.mem_cons, not_or, ← induction]
      split_ifs with equal <;> simp [equal]

@[simp] theorem lookup_erase_self (key : Key) (members : List (Key × Value)) :
    lookup key (erase key members) = none := by
  rw [lookup_eq_none_iff]
  intro present
  rcases List.mem_map.mp present with ⟨member, inErased, equal⟩
  exact of_decide_eq_true (List.mem_filter.mp inErased).2 equal

theorem lookup_erase_of_ne {key other : Key} (different : other ≠ key)
    (members : List (Key × Value)) :
    lookup other (erase key members) = lookup other members := by
  induction members with
  | nil => rfl
  | cons member rest induction =>
      rcases member with ⟨present, value⟩
      by_cases equal : present = key
      · subst equal
        have skipped : erase present ((present, value) :: rest) = erase present rest := by
          simp [erase]
        rw [skipped, lookup_cons, if_neg different, induction]
      · have kept : erase key ((present, value) :: rest) = (present, value) :: erase key rest := by
          simp [erase, equal]
        rw [kept, lookup_cons, lookup_cons, induction]

theorem mem_of_lookup_eq_some {key : Key} {value : Value} {members : List (Key × Value)}
    (found : lookup key members = some value) : (key, value) ∈ members := by
  induction members with
  | nil => cases found
  | cons member rest induction =>
      rcases member with ⟨other, old⟩
      rw [lookup_cons] at found
      split_ifs at found with equal
      · cases found
        exact equal ▸ List.mem_cons_self
      · exact List.mem_cons_of_mem _ (induction found)

theorem lookup_eq_some_of_mem {key : Key} {value : Value} {members : List (Key × Value)}
    (distinct : (keys members).Nodup) (member : (key, value) ∈ members) :
    lookup key members = some value := by
  induction members with
  | nil => cases member
  | cons head rest induction =>
      rcases head with ⟨other, old⟩
      have parts := List.nodup_cons.mp distinct
      rcases List.mem_cons.mp member with equal | inRest
      · cases equal
        simp
      · have different : key ≠ other := by
          intro equal
          exact parts.1 (List.mem_map.mpr ⟨_, inRest, equal⟩)
        rw [lookup_cons, if_neg different, induction parts.2 inRest]

theorem insert_of_not_mem {key : Key} {members : List (Key × Value)}
    (absent : key ∉ keys members) (value : Value) :
    insert key value members = members ++ [(key, value)] := by
  induction members with
  | nil => rfl
  | cons member rest induction =>
      rcases member with ⟨other, old⟩
      rw [keys, List.map_cons, List.mem_cons, not_or] at absent
      rw [insert, if_neg (Ne.symm absent.1), induction absent.2, List.cons_append]

theorem keys_insert (key : Key) (value : Value) (members : List (Key × Value)) :
    keys (insert key value members) =
      if key ∈ keys members then keys members else keys members ++ [key] := by
  by_cases present : key ∈ keys members
  · rw [if_pos present]
    induction members with
    | nil => cases present
    | cons member rest induction =>
        rcases member with ⟨other, old⟩
        by_cases equal : other = key
        · rw [insert, if_pos equal, keys, List.map_cons, keys, List.map_cons, equal]
        · rw [insert, if_neg equal, keys, List.map_cons, keys, List.map_cons]
          rw [keys, List.map_cons, List.mem_cons] at present
          exact congrArg _ (induction (present.resolve_left (Ne.symm equal)))
  · rw [if_neg present, insert_of_not_mem present, keys, List.map_append]
    rfl

theorem keys_insert_nodup {key : Key} {members : List (Key × Value)}
    (distinct : (keys members).Nodup) (value : Value) :
    (keys (insert key value members)).Nodup := by
  rw [keys_insert]
  split_ifs with present
  · exact distinct
  · exact List.nodup_append.mpr ⟨distinct, List.nodup_singleton key, by
      intro other member last inLast equal
      rw [List.mem_singleton.mp inLast] at equal
      exact present (equal ▸ member)⟩

theorem insert_insert (key : Key) (first second : Value) (members : List (Key × Value)) :
    insert key second (insert key first members) = insert key second members := by
  induction members with
  | nil => rw [insert, insert, insert, if_pos rfl]
  | cons member rest induction =>
      rcases member with ⟨present, old⟩
      by_cases equal : present = key
      · rw [insert, insert, if_pos equal, if_pos equal, insert, if_pos rfl]
      · rw [insert, insert, if_neg equal, if_neg equal, insert, if_neg equal, induction]

/-- Putting back what is there changes nothing. -/
theorem insert_eq_self {key : Key} {value : Value} {members : List (Key × Value)}
    (found : lookup key members = some value) : insert key value members = members := by
  induction members with
  | nil => cases found
  | cons member rest induction =>
      rcases member with ⟨present, old⟩
      rw [lookup_cons] at found
      by_cases equal : present = key
      · rw [if_pos equal.symm, Option.some.injEq] at found
        rw [insert, if_pos equal, equal, found]
      · rw [if_neg (Ne.symm equal)] at found
        rw [insert, if_neg equal, induction found]

theorem eq_or_mem_of_mem_insert {key : Key} {value : Value} {entry : Key × Value}
    {members : List (Key × Value)} (member : entry ∈ insert key value members) :
    entry = (key, value) ∨ entry ∈ members := by
  induction members with
  | nil => exact .inl (List.mem_singleton.mp member)
  | cons head rest induction =>
      rcases head with ⟨other, old⟩
      by_cases equal : other = key
      · rw [insert, if_pos equal] at member
        rcases List.mem_cons.mp member with assigned | inRest
        · exact .inl assigned
        · exact .inr (List.mem_cons_of_mem _ inRest)
      · rw [insert, if_neg equal] at member
        rcases List.mem_cons.mp member with rfl | inRest
        · exact .inr List.mem_cons_self
        · exact (induction inRest).imp_right (List.mem_cons_of_mem _)

/-- Assigning distinct new keys appends them. -/
theorem foldl_insert_of_nodup {members entries : List (Key × Value)}
    (distinct : (keys (members ++ entries)).Nodup) :
    entries.foldl (fun table entry => insert entry.1 entry.2 table) members =
      members ++ entries := by
  induction entries generalizing members with
  | nil => rw [List.foldl_nil, List.append_nil]
  | cons entry entries induction =>
      have absent : entry.1 ∉ keys members := by
        rw [keys, List.map_append, List.map_cons, List.nodup_append] at distinct
        intro present
        exact distinct.2.2 _ present _ List.mem_cons_self rfl
      have shifted : members ++ entry :: entries = (members ++ [entry]) ++ entries := by simp
      rw [List.foldl_cons, insert_of_not_mem absent, shifted]
      exact induction (shifted ▸ distinct)

/-- Lookup in a table that a function fills for the keys of a list. -/
theorem lookup_filterMap (valueOf : Key → Option Value) (key : Key) (listed : List Key) :
    lookup key (listed.filterMap fun other => (valueOf other).map fun value => (other, value)) =
      if key ∈ listed then valueOf key else none := by
  induction listed with
  | nil => rfl
  | cons first rest induction =>
      rw [List.filterMap_cons]
      cases found : valueOf first with
      | none =>
          simp only [Option.map_none, induction, List.mem_cons]
          by_cases same : key = first
          · subst same
            simp [found]
          · simp [same]
      | some value =>
          simp only [Option.map_some, lookup_cons, induction, List.mem_cons]
          by_cases same : key = first
          · subst same
            simp [found]
          · simp [same]

/-- Counting a key once more adds one to the total. -/
theorem sum_insert_succ (key : Key) (counts : List (Key × Nat)) :
    ((insert key ((lookup key counts).getD 0 + 1) counts).map Prod.snd).sum =
      (counts.map Prod.snd).sum + 1 := by
  induction counts with
  | nil => rfl
  | cons entry rest induction =>
      rcases entry with ⟨present, count⟩
      rw [lookup_cons, insert]
      by_cases same : present = key
      · rw [if_pos same.symm, if_pos same]
        simp only [Option.getD_some, List.map_cons, List.sum_cons]
        omega
      · rw [if_neg (Ne.symm same), if_neg same, List.map_cons, List.sum_cons, induction,
          List.map_cons, List.sum_cons, Nat.add_assoc]

theorem lookup_isSome_iff_mem_keys {key : Key} {members : List (Key × Value)} :
    (lookup key members).isSome ↔ key ∈ keys members := by
  rw [← not_iff_not, ← lookup_eq_none_iff, Option.not_isSome_iff_eq_none]

theorem lookup_map_value (transform : Value → Other) (key : Key)
    (members : List (Key × Value)) :
    lookup key (members.map fun member => (member.1, transform member.2)) =
      (lookup key members).map transform := by
  induction members with
  | nil => rfl
  | cons member rest induction =>
      rcases member with ⟨present, value⟩
      rw [List.map_cons, lookup_cons, lookup_cons, induction]
      split_ifs <;> rfl

theorem insert_map_value (transform : Value → Other) (key : Key) (value : Value)
    (members : List (Key × Value)) :
    insert key (transform value) (members.map fun member => (member.1, transform member.2)) =
      (insert key value members).map fun member => (member.1, transform member.2) := by
  induction members with
  | nil => rfl
  | cons member rest induction =>
      rcases member with ⟨present, old⟩
      rw [List.map_cons, insert, insert, induction]
      split_ifs <;> rfl

end Lookup

/-- Names that are listed once each tell the items apart. -/
theorem injective_of_listed {Item Name : Type} {name : Item → Name} {items : List Item}
    (listed : ∀ item, item ∈ items) (distinct : (items.map name).Nodup) :
    Function.Injective name :=
  fun left right => List.inj_on_of_nodup_map distinct (listed left) (listed right)

/-! ## Sorting by key -/

section Sorting

variable [LinearOrder Key]

def sortByKey (members : List (Key × Value)) : List (Key × Value) :=
  members.insertionSort fun left right => left.1 ≤ right.1

theorem sortByKey_perm (members : List (Key × Value)) : (sortByKey members).Perm members :=
  List.perm_insertionSort _ _

@[simp] theorem mem_sortByKey {member : Key × Value} {members : List (Key × Value)} :
    member ∈ sortByKey members ↔ member ∈ members :=
  List.mem_insertionSort _

theorem sortByKey_pairwise (members : List (Key × Value)) :
    (sortByKey members).Pairwise fun left right => left.1 ≤ right.1 := by
  have total : Std.Total fun left right : Key × Value => left.1 ≤ right.1 :=
    ⟨fun left right => le_total left.1 right.1⟩
  have transitive : IsTrans (Key × Value) fun left right => left.1 ≤ right.1 :=
    ⟨fun _ _ _ first second => le_trans first second⟩
  exact List.pairwise_insertionSort _ members

theorem sortByKey_eq_self {members : List (Key × Value)}
    (sorted : members.Pairwise fun left right => left.1 ≤ right.1) :
    sortByKey members = members :=
  sorted.insertionSort_eq

@[simp] theorem sortByKey_sortByKey (members : List (Key × Value)) :
    sortByKey (sortByKey members) = sortByKey members :=
  sortByKey_eq_self (sortByKey_pairwise members)

theorem sortByKey_map_value (transform : Value → Other) (members : List (Key × Value)) :
    sortByKey (members.map fun member => (member.1, transform member.2)) =
      (sortByKey members).map fun member => (member.1, transform member.2) := by
  symm
  apply List.map_insertionSort
  intros
  exact Iff.rfl

variable [DecidableEq Key]

/-- A stable sort keeps the first occurrence of each key first. -/
theorem lookup_orderedInsert (key : Key) (member : Key × Value)
    (members : List (Key × Value)) :
    lookup key (members.orderedInsert (fun left right => left.1 ≤ right.1) member) =
      lookup key (member :: members) := by
  induction members with
  | nil => rfl
  | cons head rest induction =>
      rcases member with ⟨inserted, value⟩
      rcases head with ⟨present, old⟩
      rw [List.orderedInsert_cons]
      split_ifs with before
      · rfl
      · have different : present ≠ inserted := fun equal => before equal.ge
        rw [lookup_cons, induction, lookup_cons, lookup_cons, lookup_cons]
        by_cases atInserted : key = inserted
        · subst atInserted
          simp [different.symm]
        · simp [atInserted]

@[simp] theorem lookup_sortByKey (key : Key) (members : List (Key × Value)) :
    lookup key (sortByKey members) = lookup key members := by
  induction members with
  | nil => rfl
  | cons member rest induction =>
      rcases member with ⟨present, value⟩
      have unfolded : sortByKey ((present, value) :: rest) =
          (sortByKey rest).orderedInsert (fun left right => left.1 ≤ right.1)
            (present, value) := rfl
      rw [unfolded, lookup_orderedInsert, lookup_cons, lookup_cons, induction]

end Sorting

/-! ## Grouping -/

section Group

variable {Item : Type w} [DecidableEq Key]

/-- `groups.setdefault(key, []).append(item)`. -/
def addToGroup (key : Key) (item : Item) : List (Key × List Item) → List (Key × List Item)
  | [] => [(key, [item])]
  | (other, items) :: rest =>
      if other = key then (other, items ++ [item]) :: rest
      else (other, items) :: addToGroup key item rest

/-- Group items by key, keys and items both in order of first appearance. -/
def group (keyOf : Item → Key) (items : List Item) : List (Key × List Item) :=
  items.foldl (fun groups item => addToGroup (keyOf item) item groups) []

theorem keys_addToGroup (key : Key) (item : Item) (groups : List (Key × List Item)) :
    keys (addToGroup key item groups) =
      if key ∈ keys groups then keys groups else keys groups ++ [key] := by
  induction groups with
  | nil => simp [addToGroup]
  | cons head rest induction =>
      rcases head with ⟨other, items⟩
      by_cases equal : other = key
      · subst equal
        simp [addToGroup]
      · have different : ¬key = other := Ne.symm equal
        simp only [keys] at induction
        simp only [addToGroup, if_neg equal, keys, List.map_cons, induction, List.mem_cons,
          different, false_or]
        split_ifs <;> rfl

theorem lookup_addToGroup (key : Key) (item : Item) (groups : List (Key × List Item))
    (query : Key) :
    lookup query (addToGroup key item groups) =
      if query = key then some ((lookup key groups).getD [] ++ [item])
      else lookup query groups := by
  induction groups with
  | nil => simp [addToGroup, lookup_cons]
  | cons head rest induction =>
      rcases head with ⟨other, items⟩
      by_cases equal : other = key
      · subst equal
        simp only [addToGroup, if_true, lookup_cons]
        split_ifs <;> simp
      · rw [addToGroup, if_neg equal, lookup_cons, lookup_cons, lookup_cons, induction]
        by_cases atOther : query = other
        · subst atOther
          simp [equal]
        · simp [atOther, Ne.symm equal]

/-- What grouping means, as an invariant over the items already seen. -/
structure Groups (keyOf : Item → Key) (items : List Item) (groups : List (Key × List Item)) :
    Prop where
  distinct : (keys groups).Nodup
  lookup_eq : ∀ key, lookup key groups =
    if items.filter (fun item => keyOf item = key) = [] then none
    else some (items.filter fun item => keyOf item = key)

theorem Groups.add {keyOf : Item → Key} {items : List Item} {groups : List (Key × List Item)}
    (holds : Groups keyOf items groups) (item : Item) :
    Groups keyOf (items ++ [item]) (addToGroup (keyOf item) item groups) where
  distinct := by
    rw [keys_addToGroup]
    split_ifs with present
    · exact holds.distinct
    · rw [List.nodup_append]
      refine ⟨holds.distinct, List.nodup_singleton _, ?_⟩
      intro left leftMember right rightMember equal
      rw [List.mem_singleton.mp rightMember] at equal
      exact present (equal ▸ leftMember)
  lookup_eq := by
    intro key
    rw [lookup_addToGroup, holds.lookup_eq key, holds.lookup_eq (keyOf item)]
    by_cases same : keyOf item = key
    · subst same
      simp only [if_true, List.filter_append, List.append_eq_nil_iff]
      split_ifs with empty <;> simp_all
    · simp [same, Ne.symm same]

theorem group_groups (keyOf : Item → Key) (items : List Item) :
    Groups keyOf items (group keyOf items) := by
  induction items using List.reverseRecOn with
  | nil => exact ⟨List.nodup_nil, by simp [group]⟩
  | append_singleton items item induction =>
      rw [group, List.foldl_append]
      exact induction.add item

theorem mem_group_iff {keyOf : Item → Key} {items members : List Item} {key : Key} :
    (key, members) ∈ group keyOf items ↔
      members = items.filter (fun item => keyOf item = key) ∧ members ≠ [] := by
  have groups := group_groups keyOf items
  constructor
  · intro member
    have found := lookup_eq_some_of_mem groups.distinct member
    rw [groups.lookup_eq] at found
    split_ifs at found with empty
    cases found
    exact ⟨rfl, empty⟩
  · intro shape
    rcases shape with ⟨rfl, nonempty⟩
    apply mem_of_lookup_eq_some
    rw [groups.lookup_eq, if_neg nonempty]

theorem group_keys_nodup (keyOf : Item → Key) (items : List Item) :
    (keys (group keyOf items)).Nodup :=
  (group_groups keyOf items).distinct

end Group

end AssociationList
