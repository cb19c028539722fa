import AgentTestbench.Foundation.AssociationList

/-! # First-seen tables

A scan that remembers the first value of every key and stops at the first entry that
disagrees with it. It stops exactly when two entries disagree.
-/

namespace FirstSeen

open AssociationList

variable {Key Value Place : Type} [DecidableEq Key] [DecidableEq Value]

/-- Two entries of one key with different values. -/
structure Conflict (Key Value Place : Type) where
  key : Key
  prior : Value
  priorPlace : Place
  value : Value
  place : Place

/-- An entry is a key, its value and where it was seen. -/
def scan (table : List (Key × Value × Place)) :
    List (Key × Value × Place) → Option (Conflict Key Value Place)
  | [] => none
  | (key, value, place) :: rest =>
      match lookup key table with
      | none => scan (insert key (value, place) table) rest
      | some (prior, priorPlace) =>
          if value ≠ prior then some ⟨key, prior, priorPlace, value, place⟩ else scan table rest

def firstConflict (entries : List (Key × Value × Place)) : Option (Conflict Key Value Place) :=
  scan [] entries

theorem scan_eq_none {table entries : List (Key × Value × Place)}
    (clear : scan table entries = none) :
    ∃ valueOf : Key → Option Value,
      (∀ key value place, lookup key table = some (value, place) → valueOf key = some value) ∧
      ∀ entry ∈ entries, valueOf entry.1 = some entry.2.1 := by
  induction entries generalizing table with
  | nil =>
      refine ⟨fun key => (lookup key table).map Prod.fst, ?_, nofun⟩
      intro key value place found
      simp only [found, Option.map_some]
  | cons entry rest induction =>
      rcases entry with ⟨key, value, place⟩
      cases found : lookup key table with
      | none =>
          simp only [scan, found] at clear
          rcases induction clear with ⟨valueOf, remembered, later⟩
          refine ⟨valueOf, ?_, ?_⟩
          · intro query old oldPlace earlier
            have different : query ≠ key := by
              intro equal
              rw [equal, found] at earlier
              cases earlier
            exact remembered query old oldPlace ((lookup_insert_of_ne different _ _).trans earlier)
          · rw [List.forall_mem_cons]
            exact ⟨remembered key value place (lookup_insert_self _ _ _), later⟩
      | some prior =>
          rcases prior with ⟨prior, priorPlace⟩
          simp only [scan, found] at clear
          split_ifs at clear with same
          rw [not_not] at same
          rcases induction clear with ⟨valueOf, remembered, later⟩
          refine ⟨valueOf, remembered, ?_⟩
          rw [List.forall_mem_cons]
          exact ⟨same ▸ remembered key prior priorPlace found, later⟩

theorem scan_eq_some {table entries : List (Key × Value × Place)}
    {conflict : Conflict Key Value Place} (stopped : scan table entries = some conflict) :
    (lookup conflict.key table = some (conflict.prior, conflict.priorPlace) ∨
      (conflict.key, conflict.prior, conflict.priorPlace) ∈ entries) ∧
    (conflict.key, conflict.value, conflict.place) ∈ entries ∧
      conflict.value ≠ conflict.prior := by
  induction entries generalizing table with
  | nil => cases stopped
  | cons entry rest induction =>
      rcases entry with ⟨key, value, place⟩
      cases found : lookup key table with
      | none =>
          simp only [scan, found] at stopped
          rcases induction stopped with ⟨prior, later, different⟩
          refine ⟨?_, List.mem_cons_of_mem _ later, different⟩
          rcases prior with remembered | seen
          · by_cases same : conflict.key = key
            · rw [same, lookup_insert_self] at remembered
              rw [same, ← Option.some.inj remembered]
              exact .inr List.mem_cons_self
            · rw [lookup_insert_of_ne same] at remembered
              exact .inl remembered
          · exact .inr (List.mem_cons_of_mem _ seen)
      | some prior =>
          rcases prior with ⟨prior, priorPlace⟩
          simp only [scan, found] at stopped
          split_ifs at stopped with differs
          · cases stopped
            exact ⟨.inl found, List.mem_cons_self, differs⟩
          · rcases induction stopped with ⟨prior, later, different⟩
            exact ⟨prior.imp_right (List.mem_cons_of_mem _), List.mem_cons_of_mem _ later,
              different⟩

/-- The conflict reported lies between two entries. -/
theorem firstConflict_eq_some {entries : List (Key × Value × Place)}
    {conflict : Conflict Key Value Place} (stopped : firstConflict entries = some conflict) :
    (conflict.key, conflict.prior, conflict.priorPlace) ∈ entries ∧
      (conflict.key, conflict.value, conflict.place) ∈ entries ∧
      conflict.value ≠ conflict.prior := by
  rcases scan_eq_some stopped with ⟨prior, later, different⟩
  rcases prior with remembered | seen
  · cases remembered
  · exact ⟨seen, later, different⟩

/-- Nothing is reported exactly when no two entries disagree. -/
theorem firstConflict_eq_none_iff {entries : List (Key × Value × Place)} :
    firstConflict entries = none ↔
      ∀ left ∈ entries, ∀ right ∈ entries, left.1 = right.1 → left.2.1 = right.2.1 := by
  constructor
  · intro clear left leftMember right rightMember same
    rcases scan_eq_none clear with ⟨valueOf, _, values⟩
    have leftValue := values left leftMember
    rw [same, values right rightMember] at leftValue
    exact (Option.some.inj leftValue).symm
  · intro agree
    cases stopped : firstConflict entries with
    | none => rfl
    | some conflict =>
        rcases firstConflict_eq_some stopped with ⟨prior, later, different⟩
        exact absurd (agree _ later _ prior rfl) different

/-! ## First occurrences -/

section Occurrences

variable {Item : Type} (keyOf : Item → Key)

/-- The items whose key is neither in `seen` nor that of an earlier item. -/
def keepFirst (seen : List Key) : List Item → List Item
  | [] => []
  | item :: rest =>
      if keyOf item ∈ seen then keepFirst seen rest
      else item :: keepFirst (keyOf item :: seen) rest

example : keepFirst (· % 3) [] [4, 1, 3, 7, 5, 0] = [4, 3, 5] := rfl

theorem keepFirst_sublist (seen : List Key) (items : List Item) :
    (keepFirst keyOf seen items).Sublist items := by
  induction items generalizing seen with
  | nil => exact List.Sublist.refl _
  | cons item items induction =>
      rw [keepFirst]
      split_ifs with repeated
      · exact (induction seen).cons item
      · exact (induction _).cons_cons item

theorem keepFirst_fresh (seen : List Key) (items : List Item) :
    ∀ item ∈ keepFirst keyOf seen items, keyOf item ∉ seen := by
  induction items generalizing seen with
  | nil => exact List.forall_mem_nil _
  | cons item items induction =>
      rw [keepFirst]
      split_ifs with repeated
      · exact induction seen
      · rw [List.forall_mem_cons]
        exact ⟨repeated, fun other member inSeen =>
          induction _ other member (List.mem_cons_of_mem _ inSeen)⟩

/-- No key is kept twice. -/
theorem keepFirst_distinct (seen : List Key) (items : List Item) :
    ((keepFirst keyOf seen items).map keyOf).Nodup := by
  induction items generalizing seen with
  | nil => exact List.nodup_nil
  | cons item items induction =>
      rw [keepFirst]
      split_ifs with repeated
      · exact induction seen
      · rw [List.map_cons, List.nodup_cons]
        refine ⟨fun again => ?_, induction _⟩
        rcases List.mem_map.mp again with ⟨other, member, equal⟩
        exact keepFirst_fresh keyOf _ items other member (equal ▸ List.mem_cons_self)

/-- Every item has a kept one of its key no later than itself, unless its key was seen. -/
theorem keepFirst_covers {seen : List Key} {items : List Item} {index : Nat} {item : Item}
    (found : items[index]? = some item) :
    keyOf item ∈ seen ∨ ∃ first ≤ index, ∃ kept ∈ keepFirst keyOf seen items,
      items[first]? = some kept ∧ keyOf kept = keyOf item := by
  induction items generalizing seen index with
  | nil => cases found
  | cons head items induction =>
      rw [keepFirst]
      cases index with
      | zero =>
          rw [List.getElem?_cons_zero, Option.some.injEq] at found
          subst found
          split_ifs with repeated
          · exact .inl repeated
          · exact .inr ⟨0, Nat.le_refl _, head, List.mem_cons_self, rfl, rfl⟩
      | succ index =>
          rw [List.getElem?_cons_succ] at found
          split_ifs with repeated
          · rcases @induction seen index found with inSeen | later
            · exact .inl inSeen
            · rcases later with ⟨first, before, kept, member, located, same⟩
              exact .inr ⟨first + 1, Nat.succ_le_succ before, kept, member, located, same⟩
          · rcases @induction (keyOf head :: seen) index found with inSeen | later
            · rcases List.mem_cons.mp inSeen with same | old
              · exact .inr ⟨0, Nat.zero_le _, head, List.mem_cons_self, rfl, same.symm⟩
              · exact .inl old
            · rcases later with ⟨first, before, kept, member, located, same⟩
              exact .inr ⟨first + 1, Nat.succ_le_succ before, kept,
                List.mem_cons_of_mem _ member, located, same⟩

theorem keepFirst_eq_self {seen : List Key} {items : List Item}
    (distinct : (items.map keyOf).Nodup) (fresh : ∀ item ∈ items, keyOf item ∉ seen) :
    keepFirst keyOf seen items = items := by
  induction items generalizing seen with
  | nil => rfl
  | cons item items induction =>
      rw [List.map_cons, List.nodup_cons] at distinct
      rw [List.forall_mem_cons] at fresh
      rw [keepFirst, if_neg fresh.1, induction distinct.2]
      intro other member inSeen
      rcases List.mem_cons.mp inSeen with same | old
      · exact distinct.1 (same ▸ List.mem_map_of_mem member)
      · exact fresh.2 other member old

theorem keepFirst_keepFirst (items : List Item) :
    keepFirst keyOf [] (keepFirst keyOf [] items) = keepFirst keyOf [] items :=
  keepFirst_eq_self keyOf (keepFirst_distinct keyOf [] items) fun _ _ => List.not_mem_nil

end Occurrences

/-! ## Repetitions -/

section Repetitions

variable {Item : Type} (keyOf : Item → Key)

/-- Every item whose key was met before, after the first item of that key. -/
def repeats (seen : List (Key × Item)) : List Item → List (Item × Item)
  | [] => []
  | item :: rest =>
      match lookup (keyOf item) seen with
      | some first => (first, item) :: repeats seen rest
      | none => repeats (insert (keyOf item) item seen) rest

example : repeats (· % 3) [] [4, 1, 3, 7, 5, 0] = [(4, 1), (4, 7), (3, 0)] := rfl

/-- Both items of a pair are listed, one after the other, unless the first was seen before. -/
theorem mem_repeats {seen : List (Key × Item)} {items : List Item} {first item : Item}
    (member : (first, item) ∈ repeats keyOf seen items) :
    (lookup (keyOf item) seen = some first ∧ item ∈ items) ∨
      (keyOf first = keyOf item ∧ [first, item].Sublist items) := by
  induction items generalizing seen with
  | nil => cases member
  | cons head items induction =>
      rw [repeats] at member
      cases found : lookup (keyOf head) seen with
      | some earlier =>
          simp only [found] at member
          rcases List.mem_cons.mp member with equal | later
          · cases equal
            exact .inl ⟨found, List.mem_cons_self⟩
          · rcases induction later with ⟨remembered, inItems⟩ | ⟨same, inOrder⟩
            · exact .inl ⟨remembered, List.mem_cons_of_mem _ inItems⟩
            · exact .inr ⟨same, inOrder.cons head⟩
      | none =>
          simp only [found] at member
          rcases induction member with ⟨remembered, inItems⟩ | ⟨same, inOrder⟩
          · by_cases same : keyOf item = keyOf head
            · rw [same, lookup_insert_self, Option.some.injEq] at remembered
              subst remembered
              exact .inr ⟨same.symm, (List.singleton_sublist.mpr inItems).cons_cons head⟩
            · rw [lookup_insert_of_ne same] at remembered
              exact .inl ⟨remembered, List.mem_cons_of_mem _ inItems⟩
          · exact .inr ⟨same, inOrder.cons head⟩

/-- Each key has a first item, and every other item of the key is paired with it. -/
theorem exists_first (seen : List (Key × Item)) (items : List Item) :
    ∃ firstOf : Key → Option Item,
      (∀ key first, lookup key seen = some first → firstOf key = some first) ∧
      ∀ item ∈ items, ∃ first, firstOf (keyOf item) = some first ∧
        (first = item ∨ (first, item) ∈ repeats keyOf seen items) := by
  induction items generalizing seen with
  | nil => exact ⟨fun key => lookup key seen, fun _ _ found => found, List.forall_mem_nil _⟩
  | cons head items induction =>
      rw [repeats]
      cases found : lookup (keyOf head) seen with
      | some earlier =>
          rcases induction seen with ⟨firstOf, remembered, covered⟩
          refine ⟨firstOf, remembered, List.forall_mem_cons.mpr ⟨?_, ?_⟩⟩
          · exact ⟨earlier, remembered _ _ found, .inr List.mem_cons_self⟩
          · intro item member
            rcases covered item member with ⟨first, known, paired⟩
            exact ⟨first, known, paired.imp_right (List.mem_cons_of_mem _)⟩
      | none =>
          rcases induction (insert (keyOf head) head seen) with ⟨firstOf, remembered, covered⟩
          refine ⟨firstOf, ?_, List.forall_mem_cons.mpr ⟨?_, covered⟩⟩
          · intro key first earlier
            have different : key ≠ keyOf head := by
              intro equal
              rw [equal, found] at earlier
              cases earlier
            exact remembered key first ((lookup_insert_of_ne different _ _).trans earlier)
          · exact ⟨head, remembered _ _ (lookup_insert_self _ _ _), .inl rfl⟩

end Repetitions

end FirstSeen
