import FlowTrace.Proofs.Cpp.Rewording
import FlowTrace.Proofs.Java.Placing
import FlowTrace.Proofs.Report.Balance

/-! # Exact ledgers

The sizes of a ledger are 64-bit words, while the numbers of elements that a source writes are as
large as it likes. What a program **demands** is counted here in natural numbers: the number of
elements that its source writes times the size of one element, and so on for everything that is
recorded (`Cpp.Program.demands`, `Java.Program.demands`). A ledger **tallies** with demands when it is
exact as long as their sum fits in a word (`Ledger.Tallies`). Each record keeps that, whatever numbers
it meets, so an estimate is exact exactly when the sum of the demands is below 2⁶³
(`memory_exact_iff`). -/

namespace FlowTrace

/-! ## Words that denote numbers -/

/-- A word **denotes** a number when it is that number, provided that the number fits in a word. -/
def Denotes (w : Int64) (n : Nat) : Prop := n < wordLimit → w.toInt = n

namespace Denotes

variable {w w' : Int64} {n n' : Nat}

/-- A word made of a number denotes it. -/
theorem ofNat (n : Nat) : Denotes (Int64.ofNat n) n := fun small => Int64.toInt_ofNat_of_lt small

/-- A word that is not negative denotes its own number. -/
theorem toNatClampNeg (w : Int64) (positive : 0 ≤ w.toInt) : Denotes w w.toNatClampNeg :=
  fun _ => (Int.toNat_of_nonneg positive).symm

/-- The sum of words denotes the sum of the numbers that they denote. -/
theorem add (first : Denotes w n) (second : Denotes w' n') : Denotes (w + w') (n + n') := by
  intro small
  have first := first (by omega)
  have second := second (by omega)
  have below : n + n' < 9223372036854775808 := small
  rw [Int64.toInt_add, first, second, Int.bmod_eq_of_le (by omega) (by omega), Int.natCast_add]

/-- A product with a number that is not zero. -/
theorem mul (count : Denotes w n) (size : w'.toInt = n') (positive : 0 < n') :
    Denotes (w * w') (n * n') := by
  intro small
  have count := count (Nat.lt_of_le_of_lt (Nat.le_mul_of_pos_right n positive) small)
  have below : n * n' < 9223372036854775808 := small
  rw [Int64.toInt_mul, count, size, ← Int.natCast_mul, Int.bmod_eq_of_le (by omega) (by omega)]

/-- A word is zero when the number is. -/
theorem eq_zero_iff (denotes : Denotes w n) (small : n < wordLimit) : w = 0 ↔ n = 0 := by
  have same := denotes small
  rw [← Int64.toInt_inj, same, Int64.toInt_zero, Int.natCast_eq_zero]

/-- A word is positive when the number that it denotes is, if that fits into a word. -/
theorem pos_iff (denotes : Denotes w n) (small : n < wordLimit) : 0 < w ↔ 0 < n := by
  have same := denotes small
  rw [Int64.lt_iff_toInt_lt, same, Int64.toInt_zero, Int.natCast_pos]

end Denotes

/-! ## Demands -/

/-- A **demand** for memory: who needs it, and how many bytes exactly. -/
structure Demand where
  /-- Who needs it. -/
  holder : Text
  /-- The number of bytes. -/
  bytes : Nat

namespace Demand

/-- The sum of all demands. -/
def total : List Demand → Nat
  | [] => 0
  | d :: demands => d.bytes + total demands

/-- One more demand, unless there is one for its holder already. -/
def once (demands : List Demand) (d : Demand) : List Demand :=
  if demands.any (·.holder == d.holder) then demands else demands ++ [d]

/-- The total of demands put together is the sum of their totals. -/
theorem total_append (demands more : List Demand) :
    total (demands ++ more) = total demands + total more := by
  induction demands with
  | nil => exact (Nat.zero_add _).symm
  | cons d demands ih => rw [List.cons_append, total, total, ih, Nat.add_assoc]

/-- The total of one demand. -/
theorem total_singleton (d : Demand) : total [d] = d.bytes := Nat.add_zero _

end Demand

namespace Ledger

variable {ledger : Ledger} {demands : List Demand} {bytes : Nat}

/-- A ledger is **exact** when it lists the demands one by one with their sizes, and its total is
their sum. -/
structure Exact (ledger : Ledger) (demands : List Demand) : Prop where
  /-- The sizes shown are those of the demands. -/
  listed : ledger.breakdown.map (fun a => (a.holder, shownBytes? a.size)) =
    demands.map fun d => (d.holder, some (d.bytes : Int))
  /-- The total is the sum of the demands. -/
  total : ledger.total.toInt = Demand.total demands

/-- In an exact ledger nothing is negative, and nothing is more than the total. -/
theorem Exact.le_total (exact : ledger.Exact demands) {a : Allocation} (member : a ∈ ledger.breakdown) :
    ∃ n : Nat, shownBytes? a.size = some (n : Int) ∧ (n : Int) ≤ ledger.total.toInt := by
  have shown := List.mem_map_of_mem (f := fun a => (a.holder, shownBytes? a.size)) member
  rw [exact.listed] at shown
  obtain ⟨d, demanded, same⟩ := List.mem_map.1 shown
  refine ⟨d.bytes, (Prod.mk.inj same).2.symm, ?_⟩
  obtain ⟨earlier, later, rfl⟩ := List.append_of_mem demanded
  rw [exact.total, Demand.total_append, Demand.total]
  omega

/-- An exact ledger knows the holders of the demands. -/
theorem Exact.has_eq (exact : ledger.Exact demands) (holder : Text) :
    ledger.has holder = demands.any (·.holder == holder) := by
  have holders := congrArg (fun shown => (shown.map Prod.fst).any (· == holder)) exact.listed
  rw [List.map_map, List.map_map, List.any_map, List.any_map] at holders
  exact holders

/-- A ledger **tallies** with demands when it is exact as long as their sum fits in a word. -/
structure Tallies (ledger : Ledger) (demands : List Demand) : Prop where
  /-- It is exact if the sum fits. -/
  exact : Demand.total demands < wordLimit → ledger.Exact demands

/-- An empty ledger tallies with no demands. -/
theorem tallies_empty : Tallies {} [] := ⟨fun _ => ⟨rfl, rfl⟩⟩

/-- A demand that fits in no word tallies with anything. -/
theorem tallies_of_small {d : Demand}
    (tallies : d.bytes < wordLimit → ledger.Tallies (demands ++ [d])) :
    ledger.Tallies (demands ++ [d]) := by
  refine ⟨fun small => (tallies ?_).exact small⟩
  rw [Demand.total_append, Demand.total_singleton] at small
  omega

namespace Tallies

/-- Recording what denotes a demand. -/
theorem allocateAs (tallies : ledger.Tallies demands) (holder kind : Text) {shown : Text}
    {size : Int64} (line : Nat) (honest : shownBytes? shown = some size.toInt)
    (denotes : Denotes size bytes) :
    (ledger.allocateAs holder kind shown size line).Tallies (demands ++ [⟨holder, bytes⟩]) := by
  refine ⟨fun small => ?_⟩
  have sum := Demand.total_append demands [⟨holder, bytes⟩]
  rw [Demand.total_singleton] at sum
  rw [sum] at small
  -- Both the sum so far and the new demand fit in a word, since all of it does.
  have exact := tallies.exact (Nat.lt_of_le_of_lt (Nat.le_add_right ..) small)
  have size_eq := denotes (Nat.lt_of_le_of_lt (Nat.le_add_left ..) small)
  have total_eq : Denotes ledger.total (Demand.total demands) := fun _ => exact.total
  refine ⟨?_, ?_⟩
  · simp [Ledger.allocateAs, exact.listed, honest, size_eq]
  · rw [sum, total_allocateAs]
    exact total_eq.add denotes small

/-- A ledger with one more entry tallies with one more demand. -/
theorem allocate (tallies : ledger.Tallies demands) (holder kind : Text) {size : Int64}
    (line : Nat) (denotes : Denotes size bytes) :
    (ledger.allocate holder kind size line).Tallies (demands ++ [⟨holder, bytes⟩]) := by
  refine tallies.allocateAs holder kind line ?_ denotes
  simpa using shownBytes?_bytesText_append size []

/-- Flags are not counted. -/
theorem flag (tallies : ledger.Tallies demands) (line : Nat) (description suggestion : Text) :
    (ledger.flag line description suggestion).Tallies demands :=
  ⟨fun small => ⟨(tallies.exact small).listed, (tallies.exact small).total⟩⟩

/-- A choice that makes no difference to the demands. -/
theorem ite {choice : Prop} [Decidable choice] {other : Ledger} (tallies : ledger.Tallies demands)
    (tallies' : other.Tallies demands) : (if choice then ledger else other).Tallies demands := by
  split
  · exact tallies
  · exact tallies'

/-- Nothing is demanded. -/
theorem none (tallies : ledger.Tallies demands) : ledger.Tallies (demands ++ []) := by
  rwa [List.append_nil]

/-- A choice between demands. -/
theorem choose {choice : Prop} [Decidable choice] {other : Ledger} {more more' : List Demand}
    (tallies : choice → ledger.Tallies (demands ++ more))
    (tallies' : ¬ choice → other.Tallies (demands ++ more')) :
    (if choice then ledger else other).Tallies (demands ++ if choice then more else more') := by
  by_cases chosen : choice
  · simpa only [if_pos chosen] using tallies chosen
  · simpa only [if_neg chosen] using tallies' chosen

/-- Recording a demand unless its holder has one already. -/
theorem once (tallies : ledger.Tallies demands) (holder kind : Text) {shown : Text} {size : Int64}
    (line : Nat) (honest : shownBytes? shown = some size.toInt) (denotes : Denotes size bytes) :
    (if ledger.has holder then ledger else ledger.allocateAs holder kind shown size line).Tallies
      (Demand.once demands ⟨holder, bytes⟩) := by
  refine ⟨fun small => ?_⟩
  -- The ledger asks whether it has the holder; being exact, it answers as the demands do.
  by_cases listed : demands.any (·.holder == holder) = true
  · have same : Demand.once demands ⟨holder, bytes⟩ = demands := if_pos listed
    rw [same] at small ⊢
    rw [if_pos (((tallies.exact small).has_eq holder).trans listed)]
    exact tallies.exact small
  · have more : Demand.once demands ⟨holder, bytes⟩ = demands ++ [⟨holder, bytes⟩] := if_neg listed
    rw [more] at small ⊢
    have below : Demand.total demands < wordLimit := by
      rw [Demand.total_append] at small
      exact Nat.lt_of_le_of_lt (Nat.le_add_right ..) small
    rw [if_neg (by rwa [(tallies.exact below).has_eq holder])]
    exact (tallies.allocateAs holder kind line honest denotes).exact small

variable {α : Type} {record : Ledger → α → Ledger}

/-- What every record of a list keeps tallies in the end. -/
theorem foldl {note : List Demand → α → List Demand} (tallies : ledger.Tallies demands)
    (as : List α) (keeps : ∀ a ∈ as, ∀ {ledger : Ledger} {demands : List Demand},
      ledger.Tallies demands → (record ledger a).Tallies (note demands a)) :
    (as.foldl record ledger).Tallies (as.foldl note demands) := by
  induction as generalizing ledger demands with
  | nil => exact tallies
  | cons a as ih =>
    exact ih (keeps a List.mem_cons_self tallies)
      fun b member => keeps b (List.mem_cons_of_mem a member)

/-- Records that add to the demands one after the other. -/
theorem flatMap {needs : α → List Demand} (tallies : ledger.Tallies demands) (as : List α)
    (keeps : ∀ a ∈ as, ∀ {ledger : Ledger} {demands : List Demand},
      ledger.Tallies demands → (record ledger a).Tallies (demands ++ needs a)) :
    (as.foldl record ledger).Tallies (demands ++ as.flatMap needs) := by
  induction as generalizing ledger demands with
  | nil => exact tallies.none
  | cons a as ih =>
    rw [List.foldl_cons, List.flatMap_cons, ← List.append_assoc]
    exact ih (keeps a List.mem_cons_self tallies)
      fun b member => keeps b (List.mem_cons_of_mem a member)

end Tallies

/-- An estimate is **exact within** the words when it is exact if and only if the sum of the demands
fits in a word; and then nothing in it is negative or more than its total. -/
structure ExactWithin (ledger : Ledger) (demands : List Demand) : Prop where
  /-- It is exact as long as the sum fits. -/
  exact_iff : ledger.Exact demands ↔ Demand.total demands < wordLimit
  /-- Then no part is negative, or more than the total. -/
  le_total : Demand.total demands < wordLimit → ∀ a ∈ ledger.breakdown,
    ∃ n : Nat, shownBytes? a.size = some (n : Int) ∧ (n : Int) ≤ ledger.total.toInt

/-- The total is a word, so a ledger that tallies is exact only for a sum that fits. -/
theorem Tallies.exactWithin (tallies : ledger.Tallies demands) : ledger.ExactWithin demands where
  exact_iff := by
    refine ⟨fun exact => ?_, tallies.exact⟩
    -- A sum that does not fit is larger than the total, whatever the words wrapped around to.
    have below := ledger.total.toInt_lt
    rw [exact.total] at below
    show Demand.total demands < 9223372036854775808
    omega
  le_total small _ member := (tallies.exact small).le_total member

end Ledger

/-! ## Sizes of scalars -/

/-- The number of bytes of a number of a type. -/
def scalarBytes (type : Text) : Nat := (Braced.scalarSize type).toNatClampNeg

/-- The size of a scalar type is the number of its bytes. -/
theorem scalarSize_eq (type : Text) : (Braced.scalarSize type).toInt = scalarBytes type := by
  have positive : 0 ≤ (Braced.scalarSize type).toInt := by
    unfold Braced.scalarSize
    split
    · decide
    · split <;> decide
  exact (Int.toNat_of_nonneg positive).symm

/-- The types that have a size take a byte at least. -/
theorem scalarBytes_pos {type : Text} (is_scalar : Braced.scalarSize type ≠ 0) :
    0 < scalarBytes type := by
  have same := scalarSize_eq type
  rw [Ne, ← Int64.toInt_inj, Int64.toInt_zero] at is_scalar
  omega

/-- Four bytes for each element. -/
theorem denotes_four {w : Int64} {n : Nat} (denotes : Denotes w n) : Denotes (w * 4) (n * 4) :=
  denotes.mul rfl (by decide)

/-- The size of a scalar type denotes the number of its bytes. -/
theorem denotes_scalarSize (type : Text) : Denotes (Braced.scalarSize type) (scalarBytes type) :=
  fun _ => scalarSize_eq type

/-- The size of a text with contents denotes the bytes of the object and of the contents. -/
theorem denotes_contents (n : Nat) (quoted : Option Text) (literal : Int64)
    (same : literal.toInt = n) :
    Denotes (match quoted with
      | some contents => literal + Int64.ofNat contents.runeCount
      | none => literal) (n + (quoted.map Text.runeCount).getD 0) := by
  cases quoted with
  | none => exact fun _ => same
  | some contents => exact Denotes.add (fun _ => same) (.ofNat _)

/-! ## C++ -/

namespace Cpp

/-- The sizes of arrays, and the numbers assigned to variables, are the numbers that the source
writes. -/
structure Program.CountsWritten (p : Program) : Prop where
  /-- An array has the number of elements in its brackets. -/
  arrays : ∀ a ∈ p.arrays, ∃ m ∈ arrayPattern.findAll p.code,
    a.type = m.group p.code 1 ∧ a.name = m.group p.code 2 ∧
      ∃ n : Nat, Text.toNat? (m.group p.code 3) = some n ∧ a.size.toInt = n
  /-- A number is one that is assigned. -/
  numbers : ∀ x ∈ p.numbers, ∃ m ∈ assignPattern.findAll p.code,
    x.1 = m.group p.code 1 ∧ ∃ n : Nat, Text.toNat? (m.group p.code 2) = some n ∧ x.2.toInt = n

/-- A word that is read is that of the digits. -/
theorem word?_eq_some {digits : Text} {w : Int64} (read : word? digits = some w) :
    ∃ n : Nat, Text.toNat? digits = some n ∧ w.toInt = n := by
  rw [word?] at read
  split at read
  · rename_i n number
    split at read
    · rename_i small
      cases read
      exact ⟨n, number, Denotes.ofNat n small⟩
    · cases read
  · cases read

/-- A program that was parsed counts the elements that it writes. -/
theorem countsWritten_of_parse {source : Text} {p : Program}
    (read : Program.parse source = .ok p) : p.CountsWritten := by
  obtain ⟨code, -, -, rfl⟩ := Program.parse_eq_ok.1 read
  constructor
  · intro a member
    obtain ⟨m, found, same⟩ := List.mem_filterMap.1 member
    obtain ⟨size, digits, rfl⟩ := Option.map_eq_some_iff.1 same
    exact ⟨m, found, rfl, rfl, word?_eq_some digits⟩
  · refine List.foldlRecOn (motive := fun found : List (Text × Int64) => ∀ x ∈ found,
      ∃ m ∈ assignPattern.findAll code, x.1 = m.group code 1 ∧
        ∃ n : Nat, Text.toNat? (m.group code 2) = some n ∧ x.2.toInt = n) _ _ nofun ?_
    intro found known m matched
    simp only
    split
    · exact known
    · split
      · rename_i n digits
        intro x member
        rcases List.mem_append.1 member with earlier | last
        · exact known x earlier
        · cases List.mem_singleton.1 last
          exact ⟨m, matched, rfl, word?_eq_some digits⟩
      · exact known

/-! ### Demands -/

/-- What a declared variable needs. -/
def declarationDemands (d : Declaration) : List Demand :=
  let base := baseType d.type
  if 0 < Braced.scalarSize base then [⟨d.name, scalarBytes base⟩]
  else if base == "string" then
    [⟨d.name, 32 + ((Braced.stringContents? d.value).map Text.runeCount).getD 0⟩]
  else if d.type.includes "vector" then [⟨d.name, 8024⟩]
  else []

/-- What a declared array needs: four bytes for each element. -/
def arrayDemands (a : ArrayDecl) : List Demand :=
  if a.type == "int" || a.type == "float" then [⟨a.name, a.size.toNatClampNeg * 4⟩] else []

/-- What a loop variable needs. -/
def loopVariableDemands (v : Declaration) : List Demand :=
  if 0 < Braced.scalarSize (baseType v.type) then [⟨v.name, scalarBytes (baseType v.type)⟩] else []

/-- What a parameter needs that is no array. -/
def paramDemands (f : Function) (param : Text) : List Demand :=
  match (param.dropStart "const ").words with
  | [] => []
  | first :: more =>
    let last := more.getLast?.getD first
    let type := Text.trimRight first (Text.isOneOf "*&")
    let name := Text.trimRight (Text.trimLeft last (Text.isOneOf "*&[]")) (Text.isOneOf "*&[]")
    if param.includes "[]" then []
    else if 0 < Braced.scalarSize type then
      [⟨name ++ " (param in " ++ f.name ++ ")", scalarBytes type⟩]
    else []

/-- The array among the parameters of a function. -/
def Function.arrayParam (f : Function) : ArrayParam :=
  ((f.paramList.mapIdx Prod.mk).foldl (recordParam f f.paramList) ({}, {})).2

/-- The number of elements of the array among the parameters: the first number assigned to its size,
else the number of elements of an array passed to the function, else one hundred. -/
def Program.elements (p : Program) (f : Function) : Nat :=
  match p.numbers.find? (·.1 == f.arrayParam.size) with
  | some (_, n) => n.toNatClampNeg
  | none => ((p.argumentSize? f.name).getD 100).toNatClampNeg

/-- Adds what the parameters of a function need. -/
def noteFunction (p : Program) (demands : List Demand) (f : Function) : List Demand :=
  let demands := demands ++ (f.paramList.mapIdx Prod.mk).flatMap fun param => paramDemands f param.2
  if f.arrayParam.array.isEmpty || f.arrayParam.size.isEmpty then demands
  else
    Demand.once demands
      ⟨f.arrayParam.array ++ " (array param in " ++ f.name ++ ")", p.elements f * 4⟩

/-- What the temporary strings of a loop need. -/
def loopDemands (p : Program) (l : Loop) : List Demand :=
  match l.body with
  | none => []
  | some (start, stop) =>
    if concatenates p.strings (p.code.slice start stop) then [⟨"temporary strings", 3200⟩] else []

/-- **What a program demands.** -/
def Program.demands (p : Program) : List Demand :=
  let declared := p.declarations.flatMap declarationDemands ++ p.arrays.flatMap arrayDemands ++
    p.loopVariables.flatMap loopVariableDemands
  p.functions.foldl (noteFunction p) declared ++ p.loops.flatMap (loopDemands p)

/-! ### Records -/

variable {ledger : Ledger} {demands : List Demand}

/-- The record of a declaration tallies with its demands. -/
theorem tallies_recordDeclaration (tallies : ledger.Tallies demands) (d : Declaration) :
    (recordDeclaration ledger d).Tallies (demands ++ declarationDemands d) := by
  unfold recordDeclaration declarationDemands
  dsimp only
  refine .choose (fun _ => tallies.allocate _ _ _ (denotes_scalarSize _)) fun _ => ?_
  refine .choose (fun _ => tallies.allocate _ _ _ (denotes_contents 32 _ 32 rfl)) fun _ => ?_
  refine .choose (fun _ => ?_) fun _ => tallies.none
  exact (tallies.allocateAs _ _ _ (by decide) (fun _ => by decide)).flag ..

/-- The record of an array tallies with its demands, if its size is the number written. -/
theorem tallies_recordArray (tallies : ledger.Tallies demands) {a : ArrayDecl} {n : Nat}
    (written : a.size.toInt = n) : (recordArray ledger a).Tallies (demands ++ arrayDemands a) := by
  have size := denotes_four (.toNatClampNeg a.size (by omega))
  unfold recordArray arrayDemands
  exact .choose (fun _ => ((tallies.allocate _ _ _ size).flag ..).ite (tallies.allocate _ _ _ size))
    fun _ => tallies.none

/-- The record of a loop variable tallies with its demands. -/
theorem tallies_recordLoopVariable (tallies : ledger.Tallies demands) (v : Declaration) :
    (recordLoopVariable ledger v).Tallies (demands ++ loopVariableDemands v) := by
  unfold recordLoopVariable loopVariableDemands
  exact .choose (fun _ => tallies.allocate _ _ _ (denotes_scalarSize _)) fun _ => tallies.none

/-- The record of a parameter tallies with its demands. -/
theorem tallies_recordParam (tallies : ledger.Tallies demands) (f : Function) (params : List Text)
    (found : ArrayParam) (param : Nat × Text) :
    (recordParam f params (ledger, found) param).1.Tallies (demands ++ paramDemands f param.2) := by
  obtain ⟨i, param⟩ := param
  unfold recordParam paramDemands
  dsimp only
  cases (param.dropStart "const ").words with
  | nil => exact tallies.none
  | cons first more =>
    simp only [apply_ite Prod.fst]
    exact .choose (fun _ => tallies.none) fun _ =>
      .choose (fun _ => tallies.allocate _ _ _ (denotes_scalarSize _)) fun _ => tallies.none

/-- Which array is found does not depend on what is recorded. -/
theorem recordParam_snd (f : Function) (params : List Text) (other : Ledger) (found : ArrayParam)
    (param : Nat × Text) : (recordParam f params (ledger, found) param).2 =
      (recordParam f params (other, found) param).2 := by
  unfold recordParam
  dsimp only
  split
  · rfl
  · split
    · rfl
    · split <;> rfl

/-- The record of some parameters tallies with their demands. -/
theorem tallies_params (tallies : ledger.Tallies demands) (f : Function) (params : List Text)
    (other : Ledger) (found : ArrayParam) (indexed : List (Nat × Text)) :
    (indexed.foldl (recordParam f params) (ledger, found)).1.Tallies
        (demands ++ indexed.flatMap fun param => paramDemands f param.2) ∧
      (indexed.foldl (recordParam f params) (ledger, found)).2 =
        (indexed.foldl (recordParam f params) (other, found)).2 := by
  induction indexed generalizing ledger demands other found with
  | nil => exact ⟨tallies.none, rfl⟩
  | cons param indexed ih =>
    have step := tallies_recordParam tallies f params found param
    have same : (recordParam f params (ledger, found) param).2 = _ :=
      recordParam_snd f params other found param
    rw [List.foldl_cons, List.foldl_cons, List.flatMap_cons, ← List.append_assoc]
    generalize recordParam f params (ledger, found) param = state at step same ⊢
    generalize recordParam f params (other, found) param = state' at same ⊢
    obtain ⟨ledger', found'⟩ := state
    obtain ⟨other', found''⟩ := state'
    cases same
    exact ih step other' found'

/-- The number of elements of an array parameter is a number that the source writes, or one
hundred. -/
theorem denotes_elements {p : Program} (written : p.CountsWritten) (f : Function) :
    Denotes (match p.numbers.find? (·.1 == f.arrayParam.size) with
      | some (_, n) => n
      | none => (p.argumentSize? f.name).getD 100) (p.elements f) := by
  unfold Program.elements
  split
  · rename_i n assigned
    obtain ⟨-, -, -, k, -, same⟩ := written.numbers _ (List.mem_of_find?_eq_some assigned)
    exact .toNatClampNeg n (same ▸ Int.natCast_nonneg k)
  · cases passed : p.argumentSize? f.name with
    | none => exact fun _ => by decide
    | some n =>
      obtain ⟨c, -, found⟩ := List.exists_of_findSome?_eq_some passed
      obtain ⟨arg, -, found⟩ := List.exists_of_findSome?_eq_some found
      obtain ⟨a, declared, rfl⟩ := Option.map_eq_some_iff.1 found
      obtain ⟨-, -, -, -, k, -, same⟩ := written.arrays a (List.mem_of_find?_eq_some declared)
      exact .toNatClampNeg a.size (same ▸ Int.natCast_nonneg k)

/-- The record of a function tallies with its demands. -/
theorem tallies_recordFunction {p : Program} (written : p.CountsWritten)
    (tallies : ledger.Tallies demands) (f : Function) :
    (recordFunction p ledger f).Tallies (noteFunction p demands f) := by
  obtain ⟨scalars, found⟩ := tallies_params tallies f f.paramList {} {} (f.paramList.mapIdx Prod.mk)
  have elems := denotes_elements written f
  unfold recordFunction noteFunction Function.arrayParam
  unfold Function.arrayParam at elems
  dsimp only
  rw [← found] at elems ⊢
  split
  · exact scalars
  · -- The array is listed once for each name, and flagged each time that it is long.
    have listed (holder shown : Text) := scalars.once holder "int array" f.line
      (Ledger.shownBytes?_bytesText_append (_ * 4) shown) (denotes_four elems)
    simp only [List.append_assoc] at listed ⊢
    exact ((listed ..).flag ..).ite (listed ..)

/-- The record of a loop tallies with its demands. -/
theorem tallies_recordLoop (p : Program) (tallies : ledger.Tallies demands) (l : Loop) :
    (recordLoop p p.strings ledger l).Tallies (demands ++ loopDemands p l) := by
  unfold recordLoop loopDemands
  cases l.body with
  | none => exact tallies.none
  | some braces =>
    refine .choose (fun _ => ?_) fun _ => tallies.none
    exact (tallies.allocateAs _ _ _ (by decide) (fun _ => by decide)).flag ..

/-- **The ledger of a program tallies** with what the program demands. -/
theorem Program.tallies_ledger {p : Program} (written : p.CountsWritten) :
    p.ledger.Tallies p.demands := by
  refine .flatMap ?_ _ fun l _ _ _ kept => tallies_recordLoop p kept l
  refine .foldl ?_ _ fun f _ _ _ kept => tallies_recordFunction written kept f
  refine .flatMap ?_ _ fun v _ _ _ kept => tallies_recordLoopVariable kept v
  refine .flatMap ?_ _ fun a declared _ _ kept => ?_
  · exact Ledger.tallies_empty.flatMap _ fun d _ _ _ kept => tallies_recordDeclaration kept d
  · obtain ⟨-, -, -, -, n, -, same⟩ := written.arrays a declared
    exact tallies_recordArray kept same

end Cpp

/-! ## Java -/

namespace Java

/-! ### Numbers of elements

The readers count elements in words; here the same tokens are counted in natural numbers. -/

/-- The number written by a token: its decimal digits, without the mark of a long number. It is zero
if the token is not a plain decimal, unless the digits alone are beyond 64 bits. -/
def writtenNumber (text : Text) : Nat :=
  let text := Text.trimRight text (Text.isOneOf "lL")
  let digits := text.takeWhile Text.isDigit
  let n := (Text.toNat? digits).getD 0
  if 2 * wordLimit ≤ n || digits.length = text.length then n else 0

/-- The number of elements between braces: one more than the commas outside inner brackets, not
counting a comma at the end. -/
def itemCount : List Token → Int → Nat
  | [], _ => 1
  | t :: rest, depth =>
    if t.text == "(" || t.text == "[" || t.text == "\x7b" then itemCount rest (depth + 1)
    else if t.text == ")" || t.text == "]" || t.text == "\x7d" then itemCount rest (depth - 1)
    else if t.text == "," && depth == 0 && !rest.isEmpty then 1 + itemCount rest depth
    else itemCount rest depth

/-- The number of elements that a list in braces writes out. -/
def listCount (tokens : List Token) : Nat :=
  match enclosed? tokens with
  | some ([], _) | none => 0
  | some (inside, _) => itemCount inside 0

/-- The number of elements of a new array, given the tokens behind the word `new`. -/
def newCount : List Token → Nat
  | open_ :: number :: close :: rest =>
    if open_.text == "[" && number.kind == .number && close.text == "]" then
      writtenNumber number.text
    else if open_.text == "\x7b" then listCount (open_ :: number :: close :: rest)
    else newCount (number :: close :: rest)
  | _ => 0

/-- The number of elements that an initial value writes, zero when it does not tell. -/
def initialCount : List Token → Nat
  | [] => 0
  | t :: rest =>
    if t.text == "new" then newCount rest
    else if t.text == "\x7b" then listCount (t :: rest)
    else 0

/-- The count in brackets denotes the number that is written there. -/
theorem denotes_elementCount (text : Text) : Denotes (elementCount text) (writtenNumber text) := by
  intro small
  unfold writtenNumber at small
  unfold elementCount writtenNumber
  dsimp only at small ⊢
  split
  · rename_i plain
    rw [if_pos plain] at small
    rw [Nat.min_eq_left (Nat.le_sub_one_of_lt small)]
    exact Denotes.ofNat _ small
  · rfl

/-- The elements of a list are counted by a word. -/
theorem countElements_eq (tokens : List Token) (depth : Int) :
    countElements tokens depth = Int64.ofNat (itemCount tokens depth) := by
  induction tokens generalizing depth with
  | nil => rfl
  | cons t rest ih =>
    rw [countElements, itemCount]
    split
    · exact ih _
    · split
      · exact ih _
      · split
        · rw [ih, Int64.ofNat_add]
          rfl
        · exact ih _

/-- The count of the elements of a list denotes their number. -/
theorem denotes_writtenSize (tokens : List Token) :
    Denotes (writtenSize tokens) (listCount tokens) := by
  unfold writtenSize listCount
  rcases enclosed? tokens with _ | ⟨_ | ⟨t, inside⟩, rest⟩
  · exact fun _ => rfl
  · exact fun _ => rfl
  · show Denotes (countElements (t :: inside) 0) (itemCount (t :: inside) 0)
    rw [countElements_eq]
    exact .ofNat _

/-- The count of the elements of a new array denotes their number. -/
theorem denotes_newSize (tokens : List Token) : Denotes (newSize tokens) (newCount tokens) := by
  fun_induction newSize tokens with
  | case1 open_ number close rest sized =>
    rw [newCount, if_pos sized]
    exact denotes_elementCount _
  | case2 open_ number close rest unsized braces =>
    rw [newCount, if_neg unsized, if_pos braces]
    exact denotes_writtenSize _
  | case3 open_ number close rest unsized plain ih =>
    rw [newCount, if_neg unsized, if_neg plain]
    exact ih
  | case4 tokens short =>
    rw [newCount]
    · exact fun _ => rfl
    · exact short

/-- **The size of an initial value** denotes the number of elements that it writes. -/
theorem denotes_initialSize (tokens : List Token) :
    Denotes (initialSize tokens) (initialCount tokens) := by
  cases tokens with
  | nil => exact fun _ => rfl
  | cons t rest =>
    rw [initialSize, initialCount]
    split
    · exact denotes_newSize rest
    · split
      · exact denotes_writtenSize _
      · exact fun _ => rfl

/-- A count of elements is **that of a program** when it gives each local variable the number of
elements that its initial value writes, a piece of the tokens of the program. -/
def Program.CountsWritten (p : Program) (count : Variable → Nat) : Prop :=
  ∃ tokens, tokenize p.code = .ok tokens ∧ ∀ v ∈ p.locals, ∃ init, init <:+: tokens ∧
    v.init = (sourceOf p.code tokens).text init ∧ v.size = initialSize init ∧
      count v = initialCount init

/-- Each program has a count of the elements that it writes. -/
theorem exists_countsWritten {source : Text} {p : Program} (read : Program.parse source = .ok p) :
    ∃ count, p.CountsWritten count := by
  obtain ⟨tokens, -, tokenized, written⟩ := writtenIn_of_parse read
  have counted : ∀ v, ∃ n, v ∈ p.locals → ∃ init, init <:+: tokens ∧
      v.init = (sourceOf p.code tokens).text init ∧ v.size = initialSize init ∧
        n = initialCount init := by
    intro v
    by_cases declared : v ∈ p.locals
    · obtain ⟨s, walked, member⟩ := List.mem_flatMap.1 declared
      obtain ⟨init, piece, value, size⟩ := (written s walked).declared v member
      exact ⟨_, fun _ => ⟨init, piece, value, size, rfl⟩⟩
    · exact ⟨0, fun member => absurd member declared⟩
  choose count is_count using counted
  exact ⟨count, tokens, tokenized, is_count⟩

/-! ### Demands -/

/-- What a local variable needs: an array as many bytes as its elements. -/
def localDemands (count : Variable → Nat) (v : Variable) : List Demand :=
  let scalar := Braced.scalarSize v.base
  if v.isArray then
    if scalar = 0 || count v = 0 then [] else [⟨v.name, count v * scalarBytes v.base⟩]
  else if 0 < scalar then [⟨v.name, scalarBytes v.base⟩]
  else if v.base == "String" then
    [⟨v.name, 40 + ((Braced.stringContents? v.init).map Text.runeCount).getD 0⟩]
  else if v.base == "ArrayList" || v.init.startsWith "new ArrayList" then [⟨v.name, 8040⟩]
  else []

/-- What the variables of a loop header need. -/
def loopVariableDemands (s : Statement) : List Demand :=
  match s.form with
  | .forLoop _ declared => declared.flatMap fun v =>
    if 0 < Braced.scalarSize v.base && !v.isArray then [⟨v.name, scalarBytes v.base⟩] else []
  | _ => []

/-- The number of elements of the first local array of a known size that is passed to a method;
zero if none is. -/
def Program.argumentCount (p : Program) (count : Variable → Nat) (method : Text) : Nat :=
  (((p.arguments method).find? fun v => v.isArray && 0 < count v).map count).getD 0

/-- Adds what a parameter of a method needs. An array has as many elements as an array passed to the
method, else one hundred. -/
def noteParam (p : Program) (count : Variable → Nat) (method : Text) (demands : List Demand)
    (v : Variable) : List Demand :=
  if !v.isArray then
    let holder := v.name ++ " (param in " ++ method ++ ")"
    demands ++ (if 0 < Braced.scalarSize v.base then [⟨holder, scalarBytes v.base⟩]
      else if v.base == "String" then [⟨holder, 40⟩] else [])
  else if v.base == "int" || v.base == "float" then
    let known := p.argumentCount count method
    Demand.once demands ⟨v.name ++ " (array param in " ++ method ++ ")",
      (if known = 0 then 100 else known) * 4⟩
  else demands

/-- Adds what the parameters of a method need. -/
def noteMethod (p : Program) (count : Variable → Nat) (demands : List Demand) (s : Statement) :
    List Demand :=
  match s.form with
  | .method name params => params.foldl (noteParam p count name) demands
  | _ => demands

/-- What the temporary strings of a loop need. -/
def loopDemands (p : Program) (s : Statement) : List Demand :=
  let isFor := match s.form with
    | .forLoop _ _ | .forEach _ => true
    | _ => false
  if isFor && (Statement.walkAll s.body).any (appendsString p) then [⟨"temporary strings", 4000⟩]
  else []

/-- **What a program demands**, given the number of elements of each local variable. -/
def Program.demands (p : Program) (count : Variable → Nat) : List Demand :=
  let declared := p.locals.flatMap (localDemands count) ++ p.walk.flatMap loopVariableDemands
  p.walk.foldl (noteMethod p count) declared ++ p.walk.flatMap (loopDemands p)

/-! ### Records -/

variable {ledger : Ledger} {demands : List Demand} {count : Variable → Nat}

/-- The record of a local variable tallies with its demands, if its elements are counted right. -/
theorem tallies_recordLocal (tallies : ledger.Tallies demands) (line : Nat) {v : Variable}
    (counted : Denotes v.size (count v)) :
    (recordLocal ledger line v).Tallies (demands ++ localDemands count v) := by
  unfold recordLocal localDemands
  dsimp only
  refine .choose (fun array => ?_) fun _ => ?_
  · -- An array: its size is zero when its number of elements is, or when that is too large.
    by_cases unsized : Braced.scalarSize v.base = 0 ∨ count v = 0
    · have unsized' : Braced.scalarSize v.base = 0 ∨ v.size = 0 :=
        unsized.imp_right fun none => (counted.eq_zero_iff (by rw [none]; decide)).2 none
      rw [if_pos (by simpa using unsized'), if_pos (by simpa using unsized)]
      exact tallies.none
    · obtain ⟨is_scalar, some_element⟩ := not_or.1 unsized
      have sized := scalarBytes_pos is_scalar
      have demanded : (Braced.scalarSize v.base = 0 || count v = 0) = false := by
        simp [is_scalar, some_element]
      simp only [demanded, Bool.false_eq_true, if_false]
      refine Ledger.tallies_of_small fun fits => ?_
      have small : count v < wordLimit := Nat.lt_of_le_of_lt (Nat.le_mul_of_pos_right _ sized) fits
      have some_size : v.size ≠ 0 := fun none => some_element ((counted.eq_zero_iff small).1 none)
      rw [if_neg (by simp [is_scalar, some_size])]
      have listed := tallies.allocate v.name (v.base ++ " array[" ++ Ledger.wordText v.size ++ "]")
        line (counted.mul (scalarSize_eq v.base) sized)
      exact (listed.flag ..).ite listed
  · refine .choose (fun _ => tallies.allocate _ _ _ (denotes_scalarSize _)) fun _ => ?_
    refine .choose (fun _ => tallies.allocate _ _ _ (denotes_contents 40 _ 40 rfl)) fun _ => ?_
    refine .choose (fun _ => ?_) fun _ => tallies.none
    exact (tallies.allocateAs _ _ _ (by decide) (fun _ => by decide)).flag ..

/-- The record of the variables of a loop tallies with their demands. -/
theorem tallies_recordLoopVariables (tallies : ledger.Tallies demands) (s : Statement) :
    (recordLoopVariables ledger s).Tallies (demands ++ loopVariableDemands s) := by
  unfold recordLoopVariables loopVariableDemands
  cases s.form with
  | forLoop header declared =>
    exact tallies.flatMap declared fun v _ _ _ kept =>
      .choose (fun _ => kept.allocate _ _ _ (denotes_scalarSize _)) fun _ => kept.none
  | _ => exact tallies.none

/-- **The size of an array that is passed to a method** denotes its number of elements. An array too
large for a word may be passed over for another, but then its number fits in no word either. -/
theorem denotes_argumentSize (p : Program)
    (counted : ∀ v ∈ p.locals, Denotes v.size (count v)) (method : Text) :
    Denotes (p.argumentSize method) (p.argumentCount count method) := by
  have local_counted : ∀ v ∈ p.arguments method, Denotes v.size (count v) := by
    intro v passed
    obtain ⟨m, -, passed⟩ := List.mem_flatMap.1 passed
    obtain ⟨arg, -, known⟩ := List.mem_filterMap.1 passed
    exact counted v (List.mem_of_find?_eq_some known)
  unfold Program.argumentSize Program.argumentCount
  generalize p.arguments method = passed at local_counted
  induction passed with
  | nil => exact fun _ => rfl
  | cons v passed ih =>
    have own := local_counted v List.mem_cons_self
    have later := ih fun w member => local_counted w (List.mem_cons_of_mem v member)
    intro small
    rw [List.find?_cons] at small ⊢
    rw [List.find?_cons]
    cases array : v.isArray with
    | false =>
      simp only [array, Bool.false_and] at small ⊢
      exact later small
    | true =>
      simp only [array, Bool.true_and] at small ⊢
      -- An array is passed over in both searches, or in neither, since its size denotes its number.
      by_cases sized : 0 < count v
      · simp only [sized, decide_true, Option.map_some, Option.getD_some] at small ⊢
        have sized' : 0 < v.size := (own.pos_iff small).2 sized
        simp only [sized', decide_true, Option.map_some, Option.getD_some]
        exact own small
      · have empty : count v = 0 := Nat.eq_zero_of_not_pos sized
        have empty' : v.size = 0 := (own.eq_zero_iff (by rw [empty]; decide)).2 empty
        simp only [empty, empty', Nat.lt_irrefl, decide_false] at small ⊢
        exact later small

/-- The record of a parameter tallies with its demands, if the elements of arguments are counted
right. -/
theorem tallies_recordParam (p : Program)
    (counted : ∀ v ∈ p.locals, Denotes v.size (count v)) (tallies : ledger.Tallies demands)
    (method : Text) (line : Nat) (v : Variable) :
    (recordParam p method line ledger v).Tallies (noteParam p count method demands v) := by
  unfold recordParam noteParam
  dsimp only
  by_cases scalar : (!v.isArray) = true
  · rw [if_pos scalar, if_pos scalar]
    refine .choose (fun _ => tallies.allocate _ _ _ (denotes_scalarSize _)) fun _ => ?_
    refine .choose (fun _ => ?_) fun _ => tallies.none
    exact tallies.allocateAs _ _ _ (by decide) (fun _ => by decide)
  · rw [if_neg scalar, if_neg scalar]
    by_cases four : (v.base == "int" || v.base == "float") = true
    · rw [if_pos four, if_pos four]
      have known := denotes_argumentSize p counted method
      have elems : Denotes (if p.argumentSize method = 0 then 100 else p.argumentSize method)
          (if p.argumentCount count method = 0 then 100 else p.argumentCount count method) := by
        by_cases unknown : p.argumentCount count method = 0
        · rw [if_pos ((known.eq_zero_iff (by rw [unknown]; decide)).2 unknown), if_pos unknown]
          exact fun _ => by decide
        · rw [if_neg unknown]
          intro small
          rw [if_neg (mt (known.eq_zero_iff small).1 unknown)]
          exact known small
      -- The array is listed once for each name, and flagged each time that it is long.
      have listed (holder kind shown : Text) := tallies.once holder kind line
        (Ledger.shownBytes?_bytesText_append (_ * 4) shown) (denotes_four elems)
      simp only [List.append_assoc] at listed ⊢
      exact ((listed ..).flag ..).ite (listed ..)
    · rw [if_neg four, if_neg four]
      exact tallies

/-- The record of a method tallies with its demands. -/
theorem tallies_recordMethod (p : Program)
    (counted : ∀ v ∈ p.locals, Denotes v.size (count v)) (tallies : ledger.Tallies demands)
    (s : Statement) : (recordMethod p ledger s).Tallies (noteMethod p count demands s) := by
  unfold recordMethod noteMethod
  cases s.form with
  | method name params =>
    exact tallies.foldl params fun v _ _ _ kept => tallies_recordParam p counted kept name s.line v
  | _ => exact tallies

/-- The record of a loop tallies with its demands. -/
theorem tallies_recordLoop (p : Program) (tallies : ledger.Tallies demands) (s : Statement) :
    (recordLoop p ledger s).Tallies (demands ++ loopDemands p s) := by
  unfold recordLoop loopDemands
  refine .choose (fun _ => ?_) fun _ => tallies.none
  exact (tallies.allocateAs _ _ _ (by decide) (fun _ => by decide)).flag ..

/-- **The ledger of a program tallies** with what the program demands. -/
theorem Program.tallies_ledger {p : Program} (written : p.CountsWritten count) :
    p.ledger.Tallies (p.demands count) := by
  have counted : ∀ v ∈ p.locals, Denotes v.size (count v) := by
    obtain ⟨tokens, -, written⟩ := written
    intro v declared
    obtain ⟨init, -, -, size, elements⟩ := written v declared
    rw [size, elements]
    exact denotes_initialSize init
  refine .flatMap ?_ _ fun s _ _ _ kept => tallies_recordLoop p kept s
  refine .foldl ?_ _ fun s _ _ _ kept => tallies_recordMethod p counted kept s
  refine .flatMap ?_ _ fun s _ _ _ kept => tallies_recordLoopVariables kept s
  rw [Program.locals, List.flatMap_assoc]
  refine Ledger.tallies_empty.flatMap _ fun s walked _ _ kept => ?_
  exact kept.flatMap _ fun v declared _ _ kept =>
    tallies_recordLocal kept s.line (counted v (List.mem_flatMap.2 ⟨s, walked, declared⟩))

end Java

/-- **Estimates of memory are exact below 2⁶³ bytes.** For every C++ and every Java program that is
read, the sizes that the ledger lists are those of the demands, one by one, and its total is their sum,
exactly when that sum fits in a word; then no size is negative, and none is more than the total. -/
theorem memory_exact_iff (source : Text) :
    (∀ {p : Cpp.Program}, Cpp.Program.parse source = .ok p →
      p.memory = p.ledger.close ∧ p.CountsWritten ∧ p.ledger.ExactWithin p.demands) ∧
    ∀ {p : Java.Program}, Java.Program.parse source = .ok p →
      p.memory = p.ledger.close ∧ (∃ count, p.CountsWritten count) ∧
        ∀ count, p.CountsWritten count → p.ledger.ExactWithin (p.demands count) := by
  constructor
  · intro p read
    have written := Cpp.countsWritten_of_parse read
    exact ⟨rfl, written, (Cpp.Program.tallies_ledger written).exactWithin⟩
  · intro p read
    exact ⟨rfl, Java.exists_countsWritten read, fun count written =>
      (Java.Program.tallies_ledger written).exactWithin⟩

/-- A program with two arrays, one of them passed to a function, and one that reads an array. -/
theorem arrays_exact :
    (∃ p, Cpp.Program.parse "int f(int a[], int n) \x7b n = 20; \x7d int x[10]; int y[30];" = .ok p ∧
      Demand.total p.demands = 244 ∧ p.ledger.Exact p.demands) ∧
    ∃ p, Java.Program.parse "int[] a = new int[10]; int[] b = \x7b1, 2, 3\x7d;" = .ok p ∧
      p.memory.total = "0.05 KB" ∧
      ∃ count, p.CountsWritten count ∧ p.ledger.ExactWithin (p.demands count) := by
  constructor
  · have shown : (Cpp.Program.parse
        "int f(int a[], int n) \x7b n = 20; \x7d int x[10]; int y[30];").toOption.map
          (fun p => Demand.total p.demands) = some 244 := by
      decide +kernel
    obtain ⟨p, read, total⟩ := exists_of_toOption_map shown
    obtain ⟨-, -, within⟩ := (memory_exact_iff _).1 read
    exact ⟨p, read, total, within.exact_iff.2 (by rw [total]; decide)⟩
  · have shown : (Java.Program.parse
        "int[] a = new int[10]; int[] b = \x7b1, 2, 3\x7d;").toOption.map
          (fun p => p.memory.total) = some "0.05 KB" := by
      decide +kernel
    obtain ⟨p, read, total⟩ := exists_of_toOption_map shown
    obtain ⟨-, ⟨count, written⟩, within⟩ := (memory_exact_iff _).2 read
    exact ⟨p, read, total, count, written, within count written⟩

/-- Numbers beyond the words wrap around: an array of more elements than there are words needs a
negative number of bytes, and one of 2⁶² elements needs none. -/
theorem array_size_wraps :
    (∃ p, Java.Program.parse
        "class A \x7b void f() \x7b int[] a = new int[99999999999999999999]; \x7d \x7d" = .ok p ∧
      p.memory.breakdown.map (fun a => Ledger.shownBytes? a.size) = [some (-4)]) ∧
    ∃ p, Cpp.Program.parse "int a[4611686018427387904];" = .ok p ∧
      p.memory.breakdown.map (fun a => Ledger.shownBytes? a.size) = [some 0] := by
  have negative : (Java.Program.parse
      "class A \x7b void f() \x7b int[] a = new int[99999999999999999999]; \x7d \x7d").toOption.map
        (fun p => p.memory.breakdown.map fun a => Ledger.shownBytes? a.size) =
          some [some (-4)] := by
    decide +kernel
  have none_left : (Cpp.Program.parse "int a[4611686018427387904];").toOption.map
      (fun p => p.memory.breakdown.map fun a => Ledger.shownBytes? a.size) = some [some 0] := by
    decide +kernel
  exact ⟨exists_of_toOption_map negative, exists_of_toOption_map none_left⟩

end FlowTrace
