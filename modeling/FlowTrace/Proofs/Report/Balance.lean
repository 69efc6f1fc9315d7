import FlowTrace.Cpp.Estimate
import FlowTrace.Java.Estimate
import FlowTrace.Proofs.Text.Numeral
import FlowTrace.Python.Estimate

/-! # Balanced ledgers

An allocation is recorded twice: its size is added to the total, and a text that shows the size is
listed. A ledger is **balanced** when the two agree, and when every bottleneck has a remedy on the
same line (`Ledger.Balanced`). Recording keeps the balance as long as the text begins with the size
that is counted (`Ledger.Balanced.allocateAs`), and each front-end only records such texts; so the
estimate of every program adds up (`memory_consistent`). -/

namespace FlowTrace

/-! ## Reading a shown size -/

/-- The number that a text begins with: decimal digits, after a minus sign if it has one; and what
comes behind it. -/
def Text.leadingNumber? (t : Text) : Option (Int × Text) :=
  let negative := t.head? == some ('-' : UInt8)
  let unsigned := if negative then t.tail else t
  (Text.toNat? (unsigned.takeWhile isDigit)).map fun n =>
    (if negative then -(n : Int) else n, unsigned.dropWhile isDigit)

/-- The number of bytes that a shown size begins with. -/
def Ledger.shownBytes? (shown : Text) : Option Int :=
  match shown.leadingNumber? with
  | some (n, rest) => if rest.startsWith " bytes" then some n else none
  | none => none

namespace Text

variable {t : Text}

/-- The digits of a numeral end where something else follows. -/
theorem takeWhile_ofNat_append (n : Nat) (apart : t.head?.any isDigit = false) :
    (ofNat n ++ t).takeWhile isDigit = ofNat n := by
  rw [List.takeWhile_append_of_pos fun c member => isDigit_of_mem_ofNat member]
  cases t with
  | nil => simp
  | cons c t =>
    have other : isDigit c = false := by simpa using apart
    rw [List.takeWhile_cons_of_neg (by simp [other]), List.append_nil]

/-- What stands behind the digits of a numeral. -/
theorem dropWhile_ofNat_append (n : Nat) (apart : t.head?.any isDigit = false) :
    (ofNat n ++ t).dropWhile isDigit = t := by
  rw [List.dropWhile_append_of_pos fun c member => isDigit_of_mem_ofNat member]
  cases t with
  | nil => rfl
  | cons c t =>
    have other : isDigit c = false := by simpa using apart
    rw [List.dropWhile_cons_of_neg (by simp [other])]

/-- No numeral begins with a minus sign. -/
theorem head_ofNat_append_ne_minus (n : Nat) (t : Text) :
    ((ofNat n ++ t).head? == some ('-' : UInt8)) = false := by
  cases digits : ofNat n with
  | nil => exact absurd digits (ofNat_ne_nil n)
  | cons c rest =>
    have digit : isDigit c = true := isDigit_of_mem_ofNat (n := n) (by simp [digits])
    simp only [List.cons_append, List.head?_cons, beq_eq_false_iff_ne, ne_eq, Option.some.injEq]
    rintro rfl
    exact absurd digit (by decide)

/-- The number that a text begins with **reads back**. -/
theorem leadingNumber?_ofInt_append (n : Int) (apart : t.head?.any isDigit = false) :
    (ofInt n ++ t).leadingNumber? = some (n, t) := by
  cases n with
  | ofNat n =>
    show leadingNumber? (ofNat n ++ t) = _
    simp only [leadingNumber?, head_ofNat_append_ne_minus, Bool.false_eq_true, if_false,
      takeWhile_ofNat_append n apart, dropWhile_ofNat_append n apart, toNat?_ofNat]
    rfl
  | negSucc n =>
    show leadingNumber? ('-' :: (ofNat (n + 1) ++ t)) = _
    simp only [leadingNumber?, List.head?_cons, BEq.rfl, if_true, List.tail_cons,
      takeWhile_ofNat_append (n + 1) apart, dropWhile_ofNat_append (n + 1) apart, toNat?_ofNat]
    rfl

end Text

/-- A shown size begins with its number of bytes, whatever follows. -/
theorem Ledger.shownBytes?_bytesText_append (size : Int64) (t : Text) :
    shownBytes? (bytesText size ++ t) = some size.toInt := by
  have read := Text.leadingNumber?_ofInt_append (t := (" bytes" : Text) ++ t) size.toInt (by rfl)
  have same : bytesText size ++ t = Text.ofInt size.toInt ++ ((" bytes" : Text) ++ t) :=
    List.append_assoc ..
  have unit : ((" bytes" : Text) ++ t).startsWith " bytes" = true :=
    List.isPrefixOf_iff_prefix.2 (List.prefix_append ..)
  simp only [shownBytes?, same, read, unit, if_true]

/-! ## Balance -/

/-- A memory estimate is **consistent** when its total is the sum, as a 64-bit word, of the sizes
that its allocations show, and when bottlenecks and remedies have the same lines one by one. -/
structure MemoryUse.Consistent (use : MemoryUse) : Prop where
  /-- The sizes shown add up to the total. -/
  adds_up : ∃ sizes : List Int64,
    use.breakdown.map (fun a => Ledger.shownBytes? a.size) = sizes.map (some ·.toInt) ∧
      use.total = Ledger.kilobytes sizes.sum
  /-- Each bottleneck has its remedy. -/
  paired : ∃ bottlenecks remedies, use.bottlenecks = some bottlenecks ∧
    use.remedies = some remedies ∧ bottlenecks.map (·.line) = remedies.map (·.line)

namespace Ledger

variable {ledger : Ledger}

/-- A ledger is **balanced** when its total is the sum of the sizes that its allocations show, and
when bottlenecks and remedies have the same lines one by one. -/
structure Balanced (ledger : Ledger) : Prop where
  /-- The sizes shown add up to the total. -/
  adds_up : ∃ sizes : List Int64,
    ledger.breakdown.map (fun a => shownBytes? a.size) = sizes.map (some ·.toInt) ∧
      ledger.total = sizes.sum
  /-- Each bottleneck has its remedy. -/
  paired : ledger.bottlenecks.map (·.line) = ledger.remedies.map (·.line)

/-- An empty ledger is balanced. -/
theorem balanced_empty : Balanced {} := ⟨⟨[], rfl, rfl⟩, rfl⟩

/-- Recording an allocation keeps the balance when it is shown as it is counted. -/
theorem Balanced.allocateAs (balanced : ledger.Balanced) (holder kind : Text) {shown : Text}
    {size : Int64} (line : Nat) (honest : shownBytes? shown = some size.toInt) :
    (ledger.allocateAs holder kind shown size line).Balanced := by
  obtain ⟨⟨sizes, listed, total⟩, paired⟩ := balanced
  refine ⟨⟨sizes ++ [size], ?_, ?_⟩, paired⟩
  · simp [Ledger.allocateAs, listed, honest]
  · rw [total_allocateAs, total, List.sum_append, List.sum_singleton]

/-- A ledger stays balanced when an allocation is entered. -/
theorem Balanced.allocate (balanced : ledger.Balanced) (holder kind : Text) (size : Int64)
    (line : Nat) : (ledger.allocate holder kind size line).Balanced := by
  refine balanced.allocateAs holder kind line ?_
  simpa using shownBytes?_bytesText_append size []

/-- A ledger stays balanced when a bottleneck is entered with its remedy. -/
theorem Balanced.flag (balanced : ledger.Balanced) (line : Nat) (description suggestion : Text) :
    (ledger.flag line description suggestion).Balanced := by
  refine ⟨balanced.adds_up, ?_⟩
  simp only [Ledger.flag, List.map_append, balanced.paired, List.map_cons, List.map_nil]

/-- A choice between two balanced ledgers is balanced. -/
theorem Balanced.ite {choice : Prop} [Decidable choice] {other : Ledger}
    (balanced : ledger.Balanced) (balanced' : other.Balanced) :
    (if choice then ledger else other).Balanced := by
  split
  · exact balanced
  · exact balanced'

/-- What every record of a list keeps balanced is balanced in the end. -/
theorem Balanced.foldl {α : Type} {record : Ledger → α → Ledger} (balanced : ledger.Balanced)
    (keeps : ∀ ledger a, ledger.Balanced → (record ledger a).Balanced) (as : List α) :
    (as.foldl record ledger).Balanced :=
  List.foldlRecOn as record balanced fun ledger kept a _ => keeps ledger a kept

/-- The estimate that a balanced ledger amounts to is consistent. -/
theorem Balanced.consistent_close (balanced : ledger.Balanced) : ledger.close.Consistent := by
  obtain ⟨⟨sizes, listed, total⟩, paired⟩ := balanced
  exact ⟨⟨sizes, listed, congrArg kilobytes total⟩, ⟨_, _, rfl, rfl, paired⟩⟩

end Ledger

/-! ## C++ -/

namespace Cpp

variable {ledger : Ledger}

/-- The record of a declaration is balanced. -/
theorem balanced_recordDeclaration (balanced : ledger.Balanced) (d : Declaration) :
    (recordDeclaration ledger d).Balanced := by
  refine (balanced.allocate ..).ite ((balanced.allocate ..).ite (Ledger.Balanced.ite ?_ balanced))
  exact (balanced.allocateAs _ _ _ (by decide)).flag ..

/-- The record of an array is balanced. -/
theorem balanced_recordArray (balanced : ledger.Balanced) (a : ArrayDecl) :
    (recordArray ledger a).Balanced :=
  (((balanced.allocate ..).flag ..).ite (balanced.allocate ..)).ite balanced

/-- The record of a loop variable is balanced. -/
theorem balanced_recordLoopVariable (balanced : ledger.Balanced) (v : Declaration) :
    (recordLoopVariable ledger v).Balanced :=
  (balanced.allocate ..).ite balanced

/-- The record of a parameter is balanced. -/
theorem balanced_recordParam (f : Function) (params : List Text) {state : Ledger × ArrayParam}
    (balanced : state.1.Balanced) (param : Nat × Text) :
    (recordParam f params state param).1.Balanced := by
  obtain ⟨ledger, found⟩ := state
  unfold recordParam
  dsimp only
  split
  · exact balanced
  · split
    · exact balanced
    · split
      · exact balanced.allocate ..
      · exact balanced

/-- The record of a function is balanced. -/
theorem balanced_recordFunction (p : Program) (balanced : ledger.Balanced) (f : Function) :
    (recordFunction p ledger f).Balanced := by
  have scalars : (((f.paramList.mapIdx Prod.mk).foldl (recordParam f f.paramList)
      (ledger, {})).1).Balanced :=
    List.foldlRecOn (motive := fun state : Ledger × ArrayParam => state.1.Balanced) _ _ balanced
      fun _ kept param _ => balanced_recordParam f f.paramList kept param
  unfold recordFunction
  dsimp only
  split
  · exact scalars
  · -- The array is listed once for each name, and flagged each time that it is long.
    have listed (holder shown : Text) (elems : Int64) {ledger : Ledger}
        (balanced : ledger.Balanced) :
        (if ledger.has holder then ledger else ledger.allocateAs holder "int array"
          (Ledger.bytesText (elems * 4) ++ " (assumed " ++ shown ++ " elements)") (elems * 4)
            f.line).Balanced := by
      refine balanced.ite (balanced.allocateAs _ _ _ ?_)
      simpa only [List.append_assoc] using Ledger.shownBytes?_bytesText_append (elems * 4) _
    exact ((listed _ _ _ scalars).flag ..).ite (listed _ _ _ scalars)

/-- The record of a loop is balanced. -/
theorem balanced_recordLoop (p : Program) (strings : List Text) (balanced : ledger.Balanced)
    (l : Loop) : (recordLoop p strings ledger l).Balanced := by
  unfold recordLoop
  split
  · exact balanced
  · refine Ledger.Balanced.ite ?_ balanced
    exact (balanced.allocateAs _ _ _ (by decide)).flag ..

/-- The estimate for a C++ program is consistent. -/
theorem Program.memory_consistent (p : Program) : p.memory.Consistent := by
  refine Ledger.Balanced.consistent_close ?_
  refine .foldl ?_ (fun _ l kept => balanced_recordLoop p p.strings kept l) _
  refine .foldl ?_ (fun _ f kept => balanced_recordFunction p kept f) _
  refine .foldl ?_ (fun _ v kept => balanced_recordLoopVariable kept v) _
  refine .foldl ?_ (fun _ a kept => balanced_recordArray kept a) _
  exact Ledger.balanced_empty.foldl (fun _ d kept => balanced_recordDeclaration kept d) _

end Cpp

/-! ## Java -/

namespace Java

variable {ledger : Ledger}

/-- The record of a local variable is balanced. -/
theorem balanced_recordLocal (balanced : ledger.Balanced) (line : Nat) (v : Variable) :
    (recordLocal ledger line v).Balanced := by
  -- An array is listed, and flagged when it is long; any other variable goes by its type.
  refine (balanced.ite (((balanced.allocate ..).flag ..).ite (balanced.allocate ..))).ite ?_
  refine (balanced.allocate ..).ite ((balanced.allocate ..).ite (Ledger.Balanced.ite ?_ balanced))
  exact (balanced.allocateAs _ _ _ (by decide)).flag ..

/-- The record of the variables of a loop is balanced. -/
theorem balanced_recordLoopVariables (balanced : ledger.Balanced) (s : Statement) :
    (recordLoopVariables ledger s).Balanced := by
  unfold recordLoopVariables
  split
  · exact balanced.foldl (fun _ _ kept => (kept.allocate ..).ite kept) _
  · exact balanced

/-- The record of a parameter is balanced. -/
theorem balanced_recordParam (p : Program) (method : Text) (line : Nat)
    (balanced : ledger.Balanced) (v : Variable) :
    (recordParam p method line ledger v).Balanced := by
  -- The array is listed once for each name, and flagged each time that it is long.
  have listed (holder shown : Text) (elems : Int64) :
      (if ledger.has holder then ledger else ledger.allocateAs holder (v.base ++ " array")
        (Ledger.bytesText (elems * 4) ++ " (assumed " ++ shown ++ " elements)") (elems * 4)
          line).Balanced := by
    refine balanced.ite (balanced.allocateAs _ _ _ ?_)
    simpa only [List.append_assoc] using Ledger.shownBytes?_bytesText_append (elems * 4) _
  refine ((balanced.allocate ..).ite (Ledger.Balanced.ite ?_ balanced)).ite
    ((((listed ..).flag ..).ite (listed ..)).ite balanced)
  exact balanced.allocateAs _ _ _ (by decide)

/-- The record of a method is balanced. -/
theorem balanced_recordMethod (p : Program) (balanced : ledger.Balanced) (s : Statement) :
    (recordMethod p ledger s).Balanced := by
  unfold recordMethod
  split
  · exact balanced.foldl (fun _ v kept => balanced_recordParam p _ _ kept v) _
  · exact balanced

/-- The record of a loop is balanced. -/
theorem balanced_recordLoop (p : Program) (balanced : ledger.Balanced) (s : Statement) :
    (recordLoop p ledger s).Balanced := by
  refine Ledger.Balanced.ite ?_ balanced
  exact (balanced.allocateAs _ _ _ (by decide)).flag ..

/-- The estimate for a Java program is consistent. -/
theorem Program.memory_consistent (p : Program) : p.memory.Consistent := by
  refine Ledger.Balanced.consistent_close ?_
  refine .foldl ?_ (fun _ s kept => balanced_recordLoop p kept s) _
  refine .foldl ?_ (fun _ s kept => balanced_recordMethod p kept s) _
  refine .foldl ?_ (fun _ s kept => balanced_recordLoopVariables kept s) _
  refine Ledger.balanced_empty.foldl (fun _ s kept => ?_) _
  exact kept.foldl (fun _ v kept => balanced_recordLocal kept s.line v) _

end Java

/-! ## Python -/

namespace Python

variable {ledger : Ledger}

/-- Adding up a dictionary keeps the balance when estimating its parts does. -/
theorem balanced_dictSize {value : Ledger → Text → Ledger × Estimate}
    (keeps : ∀ ledger part, ledger.Balanced → (value ledger part).1.Balanced)
    (balanced : ledger.Balanced) (size : Int64) (parts : List Text) :
    (valueSize.dictSize value ledger size parts).1.Balanced := by
  induction parts generalizing ledger size with
  | nil => exact balanced
  | cons part parts ih =>
    rw [valueSize.dictSize]
    split
    · exact ih (keeps _ _ (keeps _ _ balanced)) _
    · split
      · exact ih balanced _
      · exact balanced

/-- Estimating a value keeps the balance: it only flags long lists. -/
theorem balanced_valueSize (bound : Nat) (balanced : ledger.Balanced) (expr : Text) (line : Nat) :
    (valueSize bound ledger expr line).1.Balanced := by
  induction bound generalizing ledger expr with
  | zero => exact balanced
  | succ bound ih =>
    rw [valueSize]
    dsimp only
    split
    · exact balanced
    · split
      · split <;> exact balanced
      · split
        · exact balanced
        · split
          · -- A list: its parts one by one, and then perhaps the flag.
            have parts_kept (parts : List Text) (size : Int64) :
                (parts.foldl (fun (state : Ledger × Int64) part =>
                  ((valueSize bound state.1 part line).1,
                    state.2 + (valueSize bound state.1 part line).2.1)) (ledger, size)).1.Balanced :=
              List.foldlRecOn (motive := fun state : Ledger × Int64 => state.1.Balanced) _ _
                balanced fun _ kept part _ => ih kept part
            split
            · exact (parts_kept ..).flag ..
            · exact parts_kept ..
          · split
            · split
              · exact balanced
              · exact balanced_dictSize (fun _ part kept => ih kept part) balanced ..
            · split
              · exact balanced
              · split <;> exact balanced

/-- The record of a statement is balanced. -/
theorem balanced_recordStatement (balanced : ledger.Balanced) (s : Statement) :
    (recordStatement ledger s).Balanced := by
  -- Comprehensions are recorded first, whatever the form of the statement.
  have comprehensions : ((comprehensionPattern.findAll s.head).foldl
      (fun ledger _ =>
        (ledger.allocateAs "list comprehension" "ListComp" "8064 bytes (assumed 1000 elements)"
            8064 s.line).flag s.line
          "List comprehension creates a large list in memory"
          "Consider using a generator expression to save memory") ledger).Balanced :=
    balanced.foldl (fun _ _ kept => (kept.allocateAs _ _ _ (by decide)).flag ..) _
  unfold recordStatement
  dsimp only
  split
  · refine comprehensions.foldl (fun ledger name kept => ?_) _
    have valued (expr : Text) := balanced_valueSize (expr.length + 1) kept expr s.line
    exact (((valued _).allocate ..).flag ..).ite ((valued _).allocate ..)
  · refine Ledger.Balanced.ite ?_ comprehensions
    split
    · exact (comprehensions.allocate ..).flag ..
    · exact comprehensions
  · exact (comprehensions.allocate ..).ite comprehensions
  · exact comprehensions.foldl (fun _ _ kept => kept.allocate ..) _
  · exact comprehensions

/-- The estimate for a Python module is consistent. -/
theorem Module.memory_consistent (m : Module) : m.memory.Consistent :=
  (Ledger.balanced_empty.foldl (fun _ entry kept => balanced_recordStatement kept entry.1)
    _).consistent_close

end Python

/-- **Memory estimates add up.** In the estimate of every program of the three languages the total
is the sum of the sizes that are shown, and each bottleneck has its remedy. -/
theorem memory_estimates_add_up :
    (∀ m : Python.Module, m.memory.Consistent) ∧ (∀ p : Java.Program, p.memory.Consistent) ∧
      ∀ p : Cpp.Program, p.memory.Consistent :=
  ⟨Python.Module.memory_consistent, Java.Program.memory_consistent,
    Cpp.Program.memory_consistent⟩

end FlowTrace
