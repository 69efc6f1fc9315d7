import FlowTrace.Json.Writes
import FlowTrace.Proofs.Json.RoundTrip

/-! # The normal form of a value

Two written forms hold the same value when they differ only in the order of members, and in members
that a later one of the same name overrides. Such values have the same **normal form**
(`Json.normal`), in which the members of each object stand in the order of their names, none of them
twice. Other than the canonical form, it leaves numbers as they are.

A value is **lasting** (`Json.isLasting`) when a place of no particular type keeps it: it is legible
and its numbers are in canonical form already. Of such a value the place holds the normal form
(`Json.canonical_of_isLasting`), and that is lasting again.

In a value that was read there is nothing to repair (`Json.repaired_of_readFirst`), so the texts that
are taken out of it are valid (`Json.isValid_of_text`). -/

namespace FlowTrace.Json

/-! ## Members in the order of their names -/

variable {name : Text} {value : Json} {held members : List (Text × Json)}

/-- A member whose name comes last is put at the end. -/
theorem setMember_last (before : ∀ entry ∈ held, entry.1 < name) :
    setMember held name value = held ++ [(name, value)] := by
  induction held with
  | nil => rfl
  | cons entry held ih =>
    obtain ⟨other, old⟩ := entry
    have less : other < name := before _ List.mem_cons_self
    have apart : name ≠ other := by
      rintro rfl
      exact List.lt_irrefl _ less
    rw [setMember, if_neg apart, if_neg (List.lt_asymm less),
      ih fun entry member => before entry (List.mem_cons_of_mem _ member)]
    rfl

/-- Whatever is in a table after a member was set was there before, or is that member. -/
theorem mem_setMember {entry : Text × Json} (member : entry ∈ setMember held name value) :
    entry = (name, value) ∨ entry ∈ held := by
  induction held with
  | nil => exact Or.inl (List.mem_singleton.1 member)
  | cons first held ih =>
    obtain ⟨other, old⟩ := first
    rw [setMember] at member
    split at member
    · exact (List.mem_cons.1 member).imp_right (List.mem_cons_of_mem _)
    · split at member
      · exact List.mem_cons.1 member
      · rcases List.mem_cons.1 member with rfl | later
        · exact Or.inr List.mem_cons_self
        · exact (ih later).imp_right (List.mem_cons_of_mem _)

/-- Setting a member keeps the names in order. -/
theorem sorted_setMember (sorted : held.Pairwise fun a b => a.1 < b.1) :
    (setMember held name value).Pairwise fun a b => a.1 < b.1 := by
  induction held with
  | nil => exact List.pairwise_singleton _ _
  | cons first held ih =>
    obtain ⟨other, old⟩ := first
    obtain ⟨before, rest⟩ := List.pairwise_cons.1 sorted
    rw [setMember]
    split
    · rename_i same
      subst same
      exact List.pairwise_cons.2 ⟨before, rest⟩
    · rename_i apart
      split
      · rename_i less
        refine List.pairwise_cons.2 ⟨fun entry member => ?_, sorted⟩
        rcases List.mem_cons.1 member with rfl | later
        · exact less
        · exact List.lt_trans less (before entry later)
      · rename_i not_less
        have greater : other < name := Std.lt_of_le_of_ne not_less (Ne.symm apart)
        refine List.pairwise_cons.2 ⟨fun entry member => ?_, ih rest⟩
        rcases mem_setMember member with rfl | later
        · exact greater
        · exact before entry later

/-- A table has an entry once a member was set. -/
theorem setMember_ne_nil : setMember held name value ≠ [] := by
  cases held with
  | nil => exact List.cons_ne_nil _ _
  | cons first held =>
    rw [setMember]
    (repeat' split) <;> exact List.cons_ne_nil _ _

/-! ## The normal form -/

mutual
/-- The **normal form** of a value. -/
def normal : Json → Json
  | null => null
  | bool value => bool value
  | num literal => num literal
  | str text => str text
  | arr items => arr (normalItems items)
  | obj members => obj (normalMembers members [])

/-- The items of a list in normal form. -/
def normalItems : List Json → List Json
  | [] => []
  | item :: items => item.normal :: normalItems items

/-- Members in normal form, added to those already `done`. -/
def normalMembers : List (Text × Json) → List (Text × Json) → List (Text × Json)
  | [], done => done
  | (name, value) :: members, done => normalMembers members (setMember done name value.normal)
end

/-- What setting a member keeps, adding members in normal form keeps too. -/
theorem normalMembers_induction {P : List (Text × Json) → Prop} (start : P held)
    (step : ∀ held, P held → ∀ member ∈ members, P (setMember held member.1 member.2.normal)) :
    P (normalMembers members held) := by
  induction members generalizing held with
  | nil => exact start
  | cons member members ih =>
    exact ih (step held start member List.mem_cons_self)
      fun held kept other inside => step held kept other (List.mem_cons_of_mem _ inside)

/-- Members in normal form stand in the order of their names. -/
theorem sorted_normalMembers (members : List (Text × Json)) :
    (normalMembers members []).Pairwise fun a b => a.1 < b.1 :=
  normalMembers_induction List.Pairwise.nil fun _ sorted _ _ => sorted_setMember sorted

/-- An object with a member has one in normal form. -/
theorem normalMembers_ne_nil (present : members ≠ []) : normalMembers members held ≠ [] := by
  cases members with
  | nil => exact absurd rfl present
  | cons member members =>
    have start : setMember held member.1 member.2.normal ≠ [] := setMember_ne_nil
    exact @normalMembers_induction _ members (· ≠ []) start fun _ _ _ _ => setMember_ne_nil

/-- Members in order whose values are in normal form stay as they are. -/
theorem normalMembers_of_sorted (sorted : (held ++ members).Pairwise fun a b => a.1 < b.1)
    (same : ∀ entry ∈ members, entry.2.normal = entry.2) :
    normalMembers members held = held ++ members := by
  induction members generalizing held with
  | nil => simp [normalMembers]
  | cons entry members ih =>
    -- The members that are done are all before the next one, so it is put behind them.
    have before : ∀ earlier ∈ held, earlier.1 < entry.1 := fun earlier member =>
      (List.pairwise_append.1 sorted).2.2 earlier member entry List.mem_cons_self
    rw [normalMembers, same entry List.mem_cons_self, setMember_last before,
      ih (by simpa using sorted) fun other member => same other (List.mem_cons_of_mem _ member)]
    simp

mutual
/-- **The normal form of a normal form is the same.** -/
theorem normal_normal : ∀ value : Json, value.normal.normal = value.normal
  | null => rfl
  | bool _ => rfl
  | num _ => rfl
  | str _ => rfl
  | arr items => congrArg arr (normalItems_normalItems items)
  | obj members => by
    refine congrArg obj ?_
    rw [normalMembers_of_sorted (by simpa using sorted_normalMembers members)
      (normal_of_mem_normalMembers members (List.forall_mem_nil _))]
    rfl

/-- The normal form of a list is its own normal form. -/
theorem normalItems_normalItems :
    ∀ items : List Json, normalItems (normalItems items) = normalItems items
  | [] => rfl
  | item :: items => congrArg₂ List.cons (normal_normal item) (normalItems_normalItems items)

/-- The values of members in normal form are in normal form. -/
theorem normal_of_mem_normalMembers : ∀ (members : List (Text × Json)) {held : List (Text × Json)},
    (∀ entry ∈ held, entry.2.normal = entry.2) →
    ∀ entry ∈ normalMembers members held, entry.2.normal = entry.2
  | [], _, same => same
  | (name, value) :: members, held, same => by
    refine normal_of_mem_normalMembers members fun entry member => ?_
    rcases mem_setMember member with rfl | earlier
    · exact normal_normal value
    · exact same entry earlier
end

/-- The items of a list are put into normal form one by one. -/
theorem normalItems_eq_map (items : List Json) : normalItems items = items.map normal := by
  induction items with
  | nil => rfl
  | cons item items ih => rw [normalItems, ih, List.map_cons]

/-- Members with the same names and values of the same normal form have the same normal form. -/
theorem normalMembers_congr {others : List (Text × Json)}
    (same : members.map (fun member => (member.1, member.2.normal)) =
      others.map fun member => (member.1, member.2.normal)) :
    normalMembers members held = normalMembers others held := by
  induction members generalizing others held with
  | nil =>
    rw [List.map_nil, eq_comm, List.map_eq_nil_iff] at same
    rw [same]
  | cons member members ih =>
    cases others with
    | nil => cases same
    | cons other others =>
      obtain ⟨first, rest⟩ := List.cons.inj same
      obtain ⟨names, values⟩ := Prod.mk.inj first
      rw [normalMembers, normalMembers, names, values, ih rest]

/-! ## Lasting values -/

mutual
/-- Whether a value is **lasting** where only so much nesting is left: its numbers are numbers, in
canonical form. -/
def isLasting (depth : Nat) : Json → Bool
  | null => true
  | bool _ => true
  | num literal => isNumber literal && canonicalLiteral? literal == some literal
  | str _ => true
  | arr items =>
    match depth with
    | 0 => false
    | depth + 1 => lastingItems depth items
  | obj members =>
    match depth with
    | 0 => false
    | depth + 1 => lastingMembers depth members

/-- Whether all items are lasting. -/
def lastingItems (depth : Nat) : List Json → Bool
  | [] => true
  | item :: items => item.isLasting depth && lastingItems depth items

/-- Whether the values of all members are lasting. -/
def lastingMembers (depth : Nat) : List (Text × Json) → Bool
  | [] => true
  | (_, value) :: members => value.isLasting depth && lastingMembers depth members
end

/-- Members are lasting when the value of each of them is. -/
theorem lastingMembers_iff {depth : Nat} :
    lastingMembers depth members = true ↔ ∀ entry ∈ members, entry.2.isLasting depth = true := by
  induction members with
  | nil => simp [lastingMembers]
  | cons entry members ih => simp [lastingMembers, ih]

mutual
/-- A lasting value is legible. -/
theorem legible_of_isLasting : ∀ (value : Json) {depth : Nat}, value.isLasting depth = true →
    value.isLegible depth = true
  | null, _, _ => rfl
  | bool _, _, _ => rfl
  | num _, _, lasting => (Bool.and_eq_true_iff.1 lasting).1
  | str _, _, _ => rfl
  | arr items, _ + 1, lasting => legibleItems_of_lasting items lasting
  | obj members, _ + 1, lasting => legibleMembers_of_lasting members lasting

/-- Lasting items are legible. -/
theorem legibleItems_of_lasting : ∀ (items : List Json) {depth : Nat},
    lastingItems depth items = true → legibleItems depth items = true
  | [], _, _ => rfl
  | item :: items, _, lasting => by
    obtain ⟨first, others⟩ := Bool.and_eq_true_iff.1 lasting
    exact Bool.and_eq_true_iff.2
      ⟨legible_of_isLasting item first, legibleItems_of_lasting items others⟩

/-- Lasting members are legible. -/
theorem legibleMembers_of_lasting : ∀ (members : List (Text × Json)) {depth : Nat},
    lastingMembers depth members = true → legibleMembers depth members = true
  | [], _, _ => rfl
  | (_, value) :: members, _, lasting => by
    obtain ⟨first, others⟩ := Bool.and_eq_true_iff.1 lasting
    exact Bool.and_eq_true_iff.2
      ⟨legible_of_isLasting value first, legibleMembers_of_lasting members others⟩
end

mutual
/-- **The canonical form of a lasting value is its normal form.** -/
theorem canonical_of_isLasting : ∀ (value : Json) {depth : Nat}, value.isLasting depth = true →
    value.canonical? = some value.normal
  | null, _, _ => rfl
  | bool _, _, _ => rfl
  | num literal, _, lasting => by
    have same : canonicalLiteral? literal = some literal :=
      eq_of_beq (Bool.and_eq_true_iff.1 lasting).2
    rw [canonical?, same]
    rfl
  | str _, _, _ => rfl
  | arr items, _ + 1, lasting => by
    rw [canonical?, canonicalItems_of_lasting items lasting]
    rfl
  | obj members, _ + 1, lasting => by
    rw [canonical?, canonicalMembers_of_lasting members lasting]
    rfl

/-- The canonical form of lasting items is their normal form. -/
theorem canonicalItems_of_lasting : ∀ (items : List Json) {depth : Nat},
    lastingItems depth items = true → canonicalItems? items = some (normalItems items)
  | [], _, _ => rfl
  | item :: items, _, lasting => by
    obtain ⟨first, others⟩ := Bool.and_eq_true_iff.1 lasting
    rw [canonicalItems?, canonical_of_isLasting item first, canonicalItems_of_lasting items others]
    rfl

/-- The canonical form of lasting members is their normal form. -/
theorem canonicalMembers_of_lasting : ∀ (members : List (Text × Json)) {depth : Nat}
    {held : List (Text × Json)}, lastingMembers depth members = true →
    canonicalMembers? members held = some (normalMembers members held)
  | [], _, _, _ => rfl
  | (name, value) :: members, _, held, lasting => by
    obtain ⟨first, others⟩ := Bool.and_eq_true_iff.1 lasting
    rw [canonicalMembers?, canonical_of_isLasting value first]
    exact canonicalMembers_of_lasting members others
end

mutual
/-- The normal form of a lasting value is lasting. -/
theorem isLasting_normal : ∀ (value : Json) {depth : Nat}, value.isLasting depth = true →
    value.normal.isLasting depth = true
  | null, _, _ => rfl
  | bool _, _, _ => rfl
  | num _, _, lasting => lasting
  | str _, _, _ => rfl
  | arr items, _ + 1, lasting => lastingItems_normalItems items lasting
  | obj members, _ + 1, lasting => lastingMembers_normalMembers members lasting rfl

/-- The normal form of lasting items is lasting. -/
theorem lastingItems_normalItems : ∀ (items : List Json) {depth : Nat},
    lastingItems depth items = true → lastingItems depth (normalItems items) = true
  | [], _, _ => rfl
  | item :: items, _, lasting => by
    obtain ⟨first, others⟩ := Bool.and_eq_true_iff.1 lasting
    exact Bool.and_eq_true_iff.2
      ⟨isLasting_normal item first, lastingItems_normalItems items others⟩

/-- The normal form of lasting members is lasting. -/
theorem lastingMembers_normalMembers : ∀ (members : List (Text × Json)) {depth : Nat}
    {held : List (Text × Json)}, lastingMembers depth members = true →
    lastingMembers depth held = true → lastingMembers depth (normalMembers members held) = true
  | [], _, _, _, done => done
  | (name, value) :: members, depth, held, lasting, done => by
    obtain ⟨first, others⟩ := Bool.and_eq_true_iff.1 lasting
    refine lastingMembers_normalMembers members others (lastingMembers_iff.2 fun entry member => ?_)
    rcases mem_setMember member with rfl | earlier
    · exact isLasting_normal value first
    · exact lastingMembers_iff.1 done entry earlier
end

/-! ## Repairing and the normal form -/

/-- The items of a list are repaired one by one. -/
theorem repairedItems_eq_map (items : List Json) : repairedItems items = items.map repaired := by
  induction items with
  | nil => rfl
  | cons item items ih => rw [repairedItems, ih, List.map_cons]

/-- Members are repaired one by one, with their names. -/
theorem repairedMembers_eq_map (members : List (Text × Json)) :
    repairedMembers members = members.map fun member => (member.1.repaired, member.2.repaired) := by
  induction members with
  | nil => rfl
  | cons member members ih => rw [repairedMembers, ih, List.map_cons]

/-- There is nothing to repair in members one by one. -/
theorem repairedMembers_eq_self_iff :
    repairedMembers members = members ↔
      ∀ entry ∈ members, entry.1.repaired = entry.1 ∧ entry.2.repaired = entry.2 := by
  induction members with
  | nil => simp [repairedMembers]
  | cons entry members ih =>
    rw [repairedMembers, List.cons.injEq, ih, List.forall_mem_cons, Prod.ext_iff]

mutual
/-- Repairing a value again changes nothing. -/
theorem repaired_repaired : ∀ value : Json, value.repaired.repaired = value.repaired
  | null => rfl
  | bool _ => rfl
  | num _ => rfl
  | str text => congrArg str (Text.repaired_repaired text)
  | arr items => congrArg arr (repairedItems_repairedItems items)
  | obj members => congrArg obj (repairedMembers_repairedMembers members)

/-- Repairing items again changes nothing. -/
theorem repairedItems_repairedItems :
    ∀ items : List Json, repairedItems (repairedItems items) = repairedItems items
  | [] => rfl
  | item :: items =>
    congrArg₂ List.cons (repaired_repaired item) (repairedItems_repairedItems items)

/-- Repairing members again changes nothing. -/
theorem repairedMembers_repairedMembers :
    ∀ members : List (Text × Json), repairedMembers (repairedMembers members) =
      repairedMembers members
  | [] => rfl
  | (name, value) :: members => by
    rw [repairedMembers, repairedMembers, Text.repaired_repaired, repaired_repaired value,
      repairedMembers_repairedMembers members]
end

mutual
/-- There is nothing to repair in the normal form of a value that was repaired. -/
theorem repaired_normal : ∀ value : Json, value.repaired = value →
    value.normal.repaired = value.normal
  | null, _ => rfl
  | bool _, _ => rfl
  | num _, _ => rfl
  | str _, same => same
  | arr items, same => congrArg arr (repairedItems_normalItems items (arr.inj same))
  | obj members, same => by
    refine congrArg obj (repairedMembers_eq_self_iff.2 ?_)
    exact repaired_of_mem_normalMembers members
      (repairedMembers_eq_self_iff.1 (obj.inj same)) (List.forall_mem_nil _)

/-- There is nothing to repair in the normal form of items that were repaired. -/
theorem repairedItems_normalItems : ∀ items : List Json, repairedItems items = items →
    repairedItems (normalItems items) = normalItems items
  | [], _ => rfl
  | item :: items, same => by
    obtain ⟨first, others⟩ := List.cons.inj same
    exact congrArg₂ List.cons (repaired_normal item first) (repairedItems_normalItems items others)

/-- There is nothing to repair in the normal form of members that were repaired. -/
theorem repaired_of_mem_normalMembers : ∀ (members : List (Text × Json))
    {held : List (Text × Json)},
    (∀ entry ∈ members, entry.1.repaired = entry.1 ∧ entry.2.repaired = entry.2) →
    (∀ entry ∈ held, entry.1.repaired = entry.1 ∧ entry.2.repaired = entry.2) →
    ∀ entry ∈ normalMembers members held,
      entry.1.repaired = entry.1 ∧ entry.2.repaired = entry.2
  | [], _, _, done => done
  | (name, value) :: members, held, same, done => by
    obtain ⟨first, others⟩ := List.forall_mem_cons.1 same
    refine repaired_of_mem_normalMembers members others fun entry member => ?_
    rcases mem_setMember member with rfl | earlier
    · exact ⟨first.1, repaired_normal value first.2⟩
    · exact done entry earlier
end

mutual
/-- A lasting value is lasting after it was repaired. -/
theorem isLasting_repaired : ∀ (value : Json) {depth : Nat}, value.isLasting depth = true →
    value.repaired.isLasting depth = true
  | null, _, _ => rfl
  | bool _, _, _ => rfl
  | num _, _, lasting => lasting
  | str _, _, _ => rfl
  | arr items, _ + 1, lasting => lastingItems_repairedItems items lasting
  | obj members, _ + 1, lasting => lastingMembers_repairedMembers members lasting

/-- Lasting items are lasting after they were repaired. -/
theorem lastingItems_repairedItems : ∀ (items : List Json) {depth : Nat},
    lastingItems depth items = true → lastingItems depth (repairedItems items) = true
  | [], _, _ => rfl
  | item :: items, _, lasting => by
    obtain ⟨first, others⟩ := Bool.and_eq_true_iff.1 lasting
    exact Bool.and_eq_true_iff.2
      ⟨isLasting_repaired item first, lastingItems_repairedItems items others⟩

/-- Lasting members are lasting after they were repaired. -/
theorem lastingMembers_repairedMembers : ∀ (members : List (Text × Json)) {depth : Nat},
    lastingMembers depth members = true → lastingMembers depth (repairedMembers members) = true
  | [], _, _ => rfl
  | (_, value) :: members, _, lasting => by
    obtain ⟨first, others⟩ := Bool.and_eq_true_iff.1 lasting
    exact Bool.and_eq_true_iff.2
      ⟨isLasting_repaired value first, lastingMembers_repairedMembers members others⟩
end

/-! ## What is read has nothing to repair -/

/-- There is nothing to repair in items one by one. -/
theorem repairedItems_eq_self_iff {items : List Json} :
    repairedItems items = items ↔ ∀ item ∈ items, item.repaired = item := by
  induction items with
  | nil => simp [repairedItems]
  | cons item items ih => rw [repairedItems, List.cons.injEq, ih, List.forall_mem_cons]

/-- A string is repaired when it ends. -/
theorem repaired_of_readString {t out text rest : Text} {skip : Nat}
    (read : readString t skip out = .ok (text, rest)) : text.repaired = text := by
  induction t generalizing skip out with
  | nil => cases read
  | cons c t ih =>
    cases skip with
    | succ skip => exact ih read
    | zero =>
      rw [readString.eq_def] at read
      simp only at read
      -- every branch fails, ends the string, or goes on behind the first byte
      repeat' split at read
      all_goals first
        | exact ih read
        | (cases read; try exact Text.repaired_repaired _)

/-- A word that is read means what it is read for. -/
theorem eq_of_readWord {word t rest : Text} {meant value : Json}
    (read : readWord word meant t = .ok (value, rest)) : value = meant := by
  rw [readWord] at read
  split at read
  · cases read
    rfl
  · split at read <;> cases read

/-- The readers that may still read `bound` values leave **nothing to repair**. -/
structure ReadsRepaired (bound : Nat) : Prop where
  /-- Values. -/
  value : ∀ {depth : Nat} {t rest : Text} {value : Json},
    readValue bound depth t = .ok (value, rest) → value.repaired = value
  /-- Lists. -/
  items : ∀ {depth : Nat} {t rest : Text} {done : List Json} {value : Json},
    readItems bound depth t done = .ok (value, rest) → (∀ item ∈ done, item.repaired = item) →
    value.repaired = value
  /-- Objects. -/
  members : ∀ {depth : Nat} {t rest : Text} {done : List (Text × Json)} {value : Json},
    readMembers bound depth t done = .ok (value, rest) →
    (∀ entry ∈ done, entry.1.repaired = entry.1 ∧ entry.2.repaired = entry.2) →
    value.repaired = value

namespace ReadsRepaired

variable (all : ReadsRepaired bound)

include all

/-- The reader of a value leaves nothing to repair when the readers that it calls do. -/
theorem value_succ {depth : Nat} {t rest : Text}
    (read : readValue (bound + 1) depth t = .ok (value, rest)) : value.repaired = value := by
  rw [readValue] at read
  split at read
  · cases read
  · rename_i c t _
    -- By its first byte the value is an object, an array, a string, one of three words or a number.
    split_ifs at read
    · split at read
      · cases read
      · split at read
        · cases read
        · split at read
          · cases read
            rfl
          · exact all.members read (List.forall_mem_nil _)
    · split at read
      · cases read
      · split at read
        · cases read
        · split at read
          · cases read
            rfl
          · exact all.items read (List.forall_mem_nil _)
    · obtain ⟨⟨text, behind⟩, is_string, same⟩ := bind_eq_ok.1 read
      cases same
      exact congrArg str (repaired_of_readString is_string)
    · rw [eq_of_readWord read]
      rfl
    · rw [eq_of_readWord read]
      rfl
    · rw [eq_of_readWord read]
      rfl
    · obtain ⟨⟨literal, behind⟩, -, same⟩ := bind_eq_ok.1 read
      cases same
      rfl

/-- The reader of items leaves nothing to repair when the readers that it calls do. -/
theorem items_succ {depth : Nat} {t rest : Text} {done : List Json}
    (read : readItems (bound + 1) depth t done = .ok (value, rest))
    (same : ∀ item ∈ done, item.repaired = item) : value.repaired = value := by
  rw [readItems] at read
  split at read
  · cases read
  · rename_i item t found
    have more : ∀ other ∈ item :: done, other.repaired = other :=
      List.forall_mem_cons.2 ⟨all.value found, same⟩
    split at read
    · cases read
    · split at read
      · exact all.items read more
      · split at read
        · cases read
          exact congrArg arr (repairedItems_eq_self_iff.2 fun other member =>
            more other (List.mem_reverse.1 member))
        · cases read

/-- The reader of members leaves nothing to repair when the readers that it calls do. -/
theorem members_succ {depth : Nat} {t rest : Text} {done : List (Text × Json)}
    (read : readMembers (bound + 1) depth t done = .ok (value, rest))
    (same : ∀ entry ∈ done, entry.1.repaired = entry.1 ∧ entry.2.repaired = entry.2) :
    value.repaired = value := by
  rw [readMembers] at read
  split at read
  · cases read
  · split at read
    · cases read
    · split at read
      · cases read
      · rename_i name t is_name
        split at read
        · cases read
        · split at read
          · cases read
          · split at read
            · cases read
            · rename_i held t found
              have more : ∀ entry ∈ (name, held) :: done,
                  entry.1.repaired = entry.1 ∧ entry.2.repaired = entry.2 :=
                List.forall_mem_cons.2 ⟨⟨repaired_of_readString is_name, all.value found⟩, same⟩
              split at read
              · cases read
              · split at read
                · exact all.members read more
                · split at read
                  · cases read
                    exact congrArg obj (repairedMembers_eq_self_iff.2 fun entry member =>
                      more entry (List.mem_reverse.1 member))
                  · cases read

end ReadsRepaired

/-- Readers leave nothing to repair, however many values they may read. -/
theorem readsRepaired (bound : Nat) : ReadsRepaired bound := by
  induction bound with
  | zero => constructor <;> intros <;> contradiction
  | succ bound all => exact ⟨all.value_succ, all.items_succ, all.members_succ⟩

/-- **A value that was read has nothing to repair.** -/
theorem repaired_of_readFirst {t rest : Text} (read : readFirst t = .ok (value, rest)) :
    value.repaired = value := (readsRepaired _).value read

/-! ## Places that hold what was read -/

/-- What holds of a place at the beginning, and is kept by each write, holds of it at the end. -/
theorem Writes.foldlM_keeps {α : Type} {P : α → Prop} {step : α → Json → Option α} {writes : Writes}
    (keeps : ∀ write ∈ writes, ∀ {held held' : α}, P held → step held write = some held' → P held')
    {first last : α} (holds : P first) (all : writes.foldlM step first = some last) : P last := by
  induction writes generalizing first with
  | nil =>
    cases all
    exact holds
  | cons write writes ih =>
    rw [List.forall_mem_cons] at keeps
    rw [List.foldlM_cons] at all
    obtain ⟨next, once, later⟩ := Option.bind_eq_some_iff.1 all
    exact ih keeps.2 (keeps.1 holds once) later

/-- There is nothing to repair in the members of a place if there is nothing in the writes. -/
theorem Writes.repaired_of_members {writes : Writes} (same : ∀ write ∈ writes, write.repaired = write)
    {members : List (Text × Json)} (held : writes.members? = some members) :
    ∀ entry ∈ members, entry.1.repaired = entry.1 ∧ entry.2.repaired = entry.2 := by
  refine Writes.foldlM_keeps (P := fun members : List (Text × Json) => ∀ entry ∈ members,
    entry.1.repaired = entry.1 ∧ entry.2.repaired = entry.2) ?_ (List.forall_mem_nil _) held
  intro write member held held' kept once
  split at once
  · cases once
    exact kept
  · cases once
    exact List.forall_mem_append.2
      ⟨kept, repairedMembers_eq_self_iff.1 (obj.inj (same _ member))⟩
  · cases once

/-- There is nothing to repair in the text of a place if there is nothing in the writes. -/
theorem Writes.repaired_of_text {writes : Writes} (same : ∀ write ∈ writes, write.repaired = write)
    {text : Text} (held : writes.text? = some text) : text.repaired = text := by
  refine Writes.foldlM_keeps (P := fun text : Text => text.repaired = text) ?_ rfl held
  intro write member held held' kept once
  split at once
  · cases once
    exact kept
  · cases once
    exact str.inj (same _ member)
  · cases once

/-- The writes to a field are among the members. -/
theorem repaired_of_writesTo
    (same : ∀ entry ∈ members, entry.1.repaired = entry.1 ∧ entry.2.repaired = entry.2)
    (field : Text) : ∀ write ∈ writesTo members field, write.repaired = write := by
  intro write member
  obtain ⟨entry, inside, rfl⟩ := List.mem_map.1 member
  exact (same entry (List.mem_of_mem_filter inside)).2

/-- **A text place in an object that was read** has nothing to repair. -/
theorem isValid_of_text (same : value.repaired = value)
    (is_object : Writes.members? [value] = some members) {field text : Text}
    (held : (writesTo members field).text? = some text) : text.isValid = true := by
  have all := Writes.repaired_of_members (List.forall_mem_singleton.2 same) is_object
  exact Text.isValid_iff.2 (Writes.repaired_of_text (repaired_of_writesTo all field) held)

end FlowTrace.Json
