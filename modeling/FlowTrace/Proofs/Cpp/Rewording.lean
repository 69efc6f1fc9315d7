import FlowTrace.Cpp.Estimate
import FlowTrace.Proofs.Braced.Rewording
import FlowTrace.Proofs.Cpp.Extent
import FlowTrace.Proofs.Flowchart.Outline
import FlowTrace.Proofs.Pattern.Groups

/-! # Reworded literals in C++ programs

The patterns run over a source in which literals stand as they are. They are alert to some bytes
and to two words (`loud`, `loudWords`); contents that have none of these are passed by. So when a
literal is reworded, the same statements are picked out at the same places (`items_reworded`), and
only the texts inside the nodes may change (`Program.flow_outline`). -/

namespace FlowTrace.Cpp

open Pattern

/-- The bytes that readers of C++ are alert to. -/
def loud : Loud where
  bytes := "\"'\\\n()[]\x7b\x7d;=<"
  ascii := Text.forall_mem_of_all (by decide)
  marks := Text.forall_mark (by decide) (by decide)

/-- The words that readers of C++ are alert to. -/
def loudWords : List Text := ["else", "return"]

/-- The contents have none of the words, neither before nor after. -/
structure Wordless (w : Rewording loud) : Prop where
  /-- The old contents do not. -/
  old : ∀ v ∈ loudWords, w.old.hasWord v = false
  /-- The new contents do not. -/
  new : ∀ v ∈ loudWords, w.new.hasWord v = false

/-! ## Matches -/

/-- The patterns that pick out what becomes a node, with the groups that cannot hold a mark. -/
def nodePatterns : List (Pattern × List Nat) :=
  [(functionPattern, [1, 2]), (declarationPattern, [2]), (arrayPattern, [1, 2, 3]),
    (conditionPattern, [1]), (elsePattern, []), (loopPattern, [1]), (callPattern, [1]),
    (returnPattern, []), (printPattern, [])]

/-- The patterns for statements are dead inside of a literal. -/
theorem level_eq_dead : ∀ p ∈ elseIfPattern :: nodePatterns.map (·.1), ∀ mark ∈ Text.marks,
    p.level loud mark (asksFor loudWords) .any = some .dead := by decide +kernel

variable {w : Rewording loud} {front back : Text}

/-- **The patterns are inert** when the contents have none of the words. -/
theorem inert (front back : Text) (wordless : Wordless w) {p : Pattern}
    (member : p ∈ elseIfPattern :: nodePatterns.map (·.1)) : Inert w front back p := by
  have no_blank : ∀ mark ∈ Text.marks, blankRanges.holds mark.toNat = false :=
    Text.forall_mark (by decide) (by decide)
  have are_words : ∀ v ∈ loudWords, IsWord v := by decide +kernel
  have mark := w.is_mark
  exact ⟨asksFor loudWords,
    stopped_words w.not_isWord_mark (no_blank _ mark) are_words wordless.old,
    stopped_words w.not_isWord_mark (no_blank _ mark) are_words wordless.new,
    level_eq_dead p member _ mark⟩

/-- What is the same in both texts about a match. -/
structure Cut (w : Rewording loud) (front back : Text) (groups : List Nat) (m : Match) : Prop where
  /-- It passes by the marks. -/
  passes : m.PassesBy w front back
  /-- Some groups have the same texts. -/
  group : ∀ index ∈ groups,
    m.group (w.reworded front back) index = m.group (w.original front back) index

/-- **The matches are the same**, and so are the texts of groups that cannot hold a mark. -/
theorem findAll_reworded (front back : Text) (wordless : Wordless w) {p : Pattern}
    (groups : List Nat) (member : (p, groups) ∈ nodePatterns) :
    p.findAll (w.reworded front back) = p.findAll (w.original front back) ∧
      ∀ m ∈ p.findAll (w.original front back), Cut w front back groups m := by
  have table : ∀ entry ∈ nodePatterns, 1 ≤ entry.1.least ∧ ∀ mark ∈ Text.marks, ∀ index ∈ entry.2,
      ∀ body ∈ entry.1.bodies index, body.leavesOut mark = true := by decide +kernel
  obtain ⟨nonempty, left_out⟩ := table _ member
  obtain ⟨same, passes⟩ := (inert front back wordless
    (List.mem_cons_of_mem _ (List.mem_map_of_mem member))).findAll_eq nonempty
  exact ⟨same, fun m found => ⟨passes m found, fun index among =>
    (isMatch_of_mem_findAll found).group_eq (passes m found)
      (left_out _ w.is_mark index among)⟩⟩

/-- **Lines are counted alike** outside the marks. -/
theorem lineAt_reworded {o : Nat} (outside : Outside w front back o) :
    Text.lineAt (w.reworded front back) o = Text.lineAt (w.original front back) o := by
  have newline : Text.newline ∈ loud.bytes := by decide
  rw [Text.lineAt, Text.lineAt, Text.newlines, Text.newlines,
    (twin_take outside).count_eq newline]

/-- The bytes that matter to the scanners are loud. -/
theorem known_alert : ∀ c ∈ Braced.alert, c ∈ loud.bytes := Text.forall_mem_of_all (by decide)

/-- A text with a literal reworded is alike. -/
theorem alike_alert (w : Rewording loud) (front back : Text) :
    Text.Alike Braced.alert (w.original front back) (w.reworded front back) :=
  (w.alike front back).mono known_alert

/-- Behind a partner of a bracket is outside the marks. -/
theorem outside_of_closing {opening stop : Nat}
    (found : Braced.closing? (w.original front back) opening = some stop) :
    Outside w front back (stop + 1) := by
  refine ⟨(Braced.closing_between found).2, fun between => ?_⟩
  obtain ⟨c, here, closing⟩ := Braced.isClosing_of_closing found
  obtain ⟨behind, within⟩ := between
  rcases Nat.eq_or_lt_of_le (Nat.le_of_lt_succ behind) with rfl | later
  · rw [Text.drop_enquote_front (Nat.le_refl _), List.drop_length] at here
    obtain rfl := Option.some.inj here
    have no_closing : ∀ mark ∈ Text.marks, Braced.isClosing mark = false :=
      Text.forall_mark (by decide) (by decide)
    rw [no_closing _ w.is_mark] at closing
    cases closing
  · obtain ⟨k, rfl⟩ := Nat.exists_eq_add_of_lt later
    rw [Nat.add_right_comm] at here
    have inside : k < w.old.length := by omega
    rw [Text.drop_enquote_contents k (Nat.le_of_lt inside), List.drop_eq_getElem_cons inside] at here
    obtain rfl := Option.some.inj here
    rw [Braced.isClosing_eq_false fun among =>
      w.quiet_old _ (List.getElem_mem inside) (known_alert _ among)] at closing
    cases closing

/-- **The body of a loop** is found at the same place. -/
theorem bodyAfter_reworded (opening : Nat) :
    bodyAfter? (w.reworded front back) opening = bodyAfter? (w.original front back) opening := by
  have alike := alike_alert w front back
  have no_blank : ∀ mark ∈ Text.marks, Text.isOneOf " \t\r\n" mark = false :=
    Text.forall_mark (by decide) (by decide)
  simp only [bodyAfter?, Braced.closing_alike alike]
  cases found : Braced.closing? (w.original front back) opening with
  | none => rfl
  | some stop =>
    have rests : (((w.reworded front back).drop (stop + 1)).dropWhile
          (Text.isOneOf " \t\r\n")).head? =
        (((w.original front back).drop (stop + 1)).dropWhile (Text.isOneOf " \t\r\n")).head? ∧
      (((w.reworded front back).drop (stop + 1)).dropWhile (Text.isOneOf " \t\r\n")).length =
        (((w.original front back).drop (stop + 1)).dropWhile
          (Text.isOneOf " \t\r\n")).length := by
      rcases twin_drop (outside_of_closing found) with same | ⟨front', back', first, second⟩
      · rw [same]
        exact ⟨rfl, rfl⟩
      · have stays := no_blank _ w.is_mark
        rw [first, second, Rewording.original, Rewording.reworded, Text.enquote, Text.enquote,
          Text.dropWhile_stop stays, Text.dropWhile_stop stays]
        refine ⟨?_, ?_⟩
        · cases front'.dropWhile (Text.isOneOf " \t\r\n") <;> rfl
        · simp only [List.length_append, List.length_cons, w.length_new]
    simp only [Option.bind_eq_bind, Option.bind_some, rests.1, rests.2, length_reworded]

/-- **What looks like a call** is told from a declaration alike. -/
theorem isPrototype_reworded {o : Nat} (outside : Outside w front back o) :
    isPrototype (w.reworded front back) o = isPrototype (w.original front back) o := by
  have no_gap : ∀ mark ∈ Text.marks, Text.isOneOf " \t\r\n*&" mark = false :=
    Text.forall_mark (by decide) (by decide)
  rcases twin_take outside with same | ⟨front', back', first, second⟩
  · rw [isPrototype, isPrototype, same]
  · have read (contents : Text) :
        (((Text.enquote w.mark front' contents back').reverse.dropWhile
          (Text.isOneOf " \t\r\n*&")).takeWhile Text.isWord) =
        (back'.reverse.dropWhile (Text.isOneOf " \t\r\n*&")).takeWhile Text.isWord := by
      have reversed : (Text.enquote w.mark front' contents back').reverse =
          back'.reverse ++ w.mark :: (contents.reverse ++ w.mark :: front'.reverse) := by
        simp [Text.enquote]
      rw [reversed, Text.dropWhile_stop (no_gap _ w.is_mark),
        Text.takeWhile_stop w.not_isWord_mark]
    rw [isPrototype, isPrototype, first, second, read, read]

/-! ## Statements -/

/-- A function without its parameters. -/
def Function.outline (f : Function) : Function := { f with params := [] }

/-- A declaration without type and value. -/
def Declaration.outline (d : Declaration) : Declaration := { d with type := [], value := [] }

/-- A condition without its text. -/
def Condition.outline (c : Condition) : Condition := { c with text := [] }

/-- A loop without its text. -/
def Loop.outline (l : Loop) : Loop := { l with word := [], text := [] }

/-- A phrase without its text. -/
def Phrase.outline (p : Phrase) : Phrase := { p with text := [] }

/-- Rows that are picked out of the same matches are the same, up to what is left out. -/
theorem filterMap_outline {α β γ : Type} {ms : List α} {f f' : α → Option β} (outline : β → γ)
    (each : ∀ m ∈ ms, (f' m).map outline = (f m).map outline) :
    (ms.filterMap f').map outline = (ms.filterMap f).map outline := by
  rw [List.map_filterMap, List.map_filterMap]
  exact List.filterMap_congr each

/-- The groups that are cut out begin outside of the literal. -/
theorem Cut.outside {groups : List Nat} {m : Match} (cut : Cut w front back groups m) (index : Nat) :
    Outside w front back (m.groupStart index) := by
  unfold Match.groupStart
  cases is_extent : m.extent? index with
  | none => exact cut.passes.start
  | some extent => exact (cut.passes.kept _ (IsMatch.mem_of_extent is_extent)).1

/-- A type that is one of the excluded words has no mark in it. -/
theorem notTypes_reworded {t t' : Text} (twin : w.Twin t t') :
    notTypes.contains t'.collapse = notTypes.contains t.collapse := by
  have marked {front contents back : Text} :
      notTypes.contains (Text.enquote w.mark front contents back).collapse = false := by
    have unmarked : ∀ mark ∈ Text.marks, ∀ v ∈ notTypes, mark ∉ v :=
      Text.forall_mark (by decide) (by decide)
    rw [Bool.eq_false_iff]
    intro among
    exact unmarked _ w.is_mark _ (List.contains_iff_mem.1 among)
      (Text.mem_collapse w.mark_lt (Text.solid_of_mark _ w.is_mark)
        (List.mem_append_right _ List.mem_cons_self))
  rcases twin with rfl | ⟨front, back, rfl, rfl⟩
  · rfl
  · rw [marked, marked]

section Statements

variable (wordless : Wordless w)

include wordless

/-- The functions that are found are the same. -/
theorem functions_reworded :
    (findFunctions (w.reworded front back)).map Function.outline =
      (findFunctions (w.original front back)).map Function.outline := by
  obtain ⟨same, cut⟩ := findAll_reworded front back wordless
    (p := functionPattern) [1, 2] (by decide)
  rw [findFunctions, findFunctions, same]
  refine filterMap_outline _ fun m member => ?_
  have cut := cut m member
  simp only [cut.group 1 (by decide), cut.group 2 (by decide), lineAt_reworded (cut.outside 2)]
  split <;> rfl

/-- The declarations that are found are the same. -/
theorem declarations_reworded :
    (findDeclarations (w.reworded front back)).map Declaration.outline =
      (findDeclarations (w.original front back)).map Declaration.outline := by
  obtain ⟨same, cut⟩ := findAll_reworded front back wordless (p := declarationPattern) [2]
    (by decide)
  rw [findDeclarations, findDeclarations, same]
  refine filterMap_outline _ fun m member => ?_
  have cut := cut m member
  simp only [notTypes_reworded (cut.passes.group_twin 1), cut.group 2 (by decide),
    lineAt_reworded (cut.outside 2)]
  split <;> rfl

/-- The arrays that are found are the same. -/
theorem arrays_reworded :
    findArrays (w.reworded front back) = findArrays (w.original front back) := by
  obtain ⟨same, cut⟩ := findAll_reworded front back wordless (p := arrayPattern) [1, 2, 3]
    (by decide)
  rw [findArrays, findArrays, same]
  refine List.filterMap_congr fun m member => ?_
  have cut := cut m member
  rw [cut.group 1 (by decide), cut.group 2 (by decide), cut.group 3 (by decide),
    lineAt_reworded cut.passes.start]

/-- The conditions that are found are the same. -/
theorem conditions_reworded :
    (findConditions (w.reworded front back)).map Condition.outline =
      (findConditions (w.original front back)).map Condition.outline := by
  obtain ⟨same, cut⟩ := findAll_reworded front back wordless (p := conditionPattern) [1] (by decide)
  obtain ⟨same', cut'⟩ := findAll_reworded front back wordless (p := elsePattern) [] (by decide)
  have sorted (conditions : List Condition) :
      (conditions.mergeSort fun a b => a.offset ≤ b.offset).map Condition.outline =
        (conditions.map Condition.outline).mergeSort fun a b => a.offset ≤ b.offset :=
    List.map_mergeSort fun a _ b _ => rfl
  simp only [findConditions, same, same', sorted, List.map_append]
  congr 2
  · rw [List.map_map, List.map_map]
    refine List.map_congr_left fun m member => ?_
    have cut := cut m member
    simp only [Function.comp_apply, cut.group 1 (by decide), lineAt_reworded cut.passes.start]
    rfl
  · refine filterMap_outline _ fun m member => ?_
    have cut := cut' m member
    have followed : elseIfPattern.matchesIn ((w.reworded front back).drop m.stop) =
        elseIfPattern.matchesIn ((w.original front back).drop m.stop) := by
      rcases twin_drop cut.passes.stop with same | ⟨front', back', first, second⟩
      · rw [same]
      · rw [first, second]
        exact (inert front' back' wordless (by decide)).matchesIn_eq
    rw [followed, lineAt_reworded cut.passes.start]

/-- The loops that are found are the same. -/
theorem loops_reworded :
    (findLoops (w.reworded front back)).map Loop.outline =
      (findLoops (w.original front back)).map Loop.outline := by
  obtain ⟨same, cut⟩ := findAll_reworded front back wordless (p := loopPattern) [1] (by decide)
  rw [findLoops, findLoops, same, List.map_map, List.map_map]
  refine List.map_congr_left fun m member => ?_
  simp only [Function.comp_apply, Loop.outline, bodyAfter_reworded,
    lineAt_reworded (cut m member).passes.start]

/-- The calls that are found are the same. -/
theorem calls_reworded :
    (findCalls (w.reworded front back)).map Phrase.outline =
      (findCalls (w.original front back)).map Phrase.outline := by
  obtain ⟨same, cut⟩ := findAll_reworded front back wordless (p := callPattern) [1] (by decide)
  rw [findCalls, findCalls, same]
  refine filterMap_outline _ fun m member => ?_
  have cut := cut m member
  simp only [cut.group 1 (by decide), isPrototype_reworded (cut.outside 1),
    lineAt_reworded cut.passes.start]
  split <;> rfl

/-- The phrases that are found are the same. -/
theorem phrases_reworded (p : Pattern) (member : (p, []) ∈ nodePatterns) :
    (findPhrases p (w.reworded front back)).map Phrase.outline =
      (findPhrases p (w.original front back)).map Phrase.outline := by
  obtain ⟨same, cut⟩ := findAll_reworded front back wordless [] member
  rw [findPhrases, findPhrases, same, List.map_map, List.map_map]
  refine List.map_congr_left fun m found => ?_
  simp only [Function.comp_apply, Phrase.outline, lineAt_reworded (cut m found).passes.start]

end Statements

/-! ## Chains -/

/-- An item without the text of its node and without what its step says. -/
def Item.outline (item : Item) : Item := { item with face := item.face.unlabelled, note := {} }

/-- A chain with the outline of its flow. -/
def Chain.outline (chain : Chain) : Chain := { chain with flow := chain.flow.outline }

/-- Items of statements that agree in their outlines agree in theirs. -/
theorem mapIdx_outline {α β : Type} {f : Nat → α → Item} {outline : α → β} {l l' : List α}
    (item : ∀ i a a', outline a = outline a' → (f i a).outline = (f i a').outline)
    (same : l'.map outline = l.map outline) :
    (l'.mapIdx f).map Item.outline = (l.mapIdx f).map Item.outline := by
  have length : l'.length = l.length := by simpa using congrArg List.length same
  refine List.ext_getElem (by simp [length]) fun i inside inside' => ?_
  simp only [List.length_map, List.length_mapIdx] at inside inside'
  simp only [List.getElem_map, List.getElem_mapIdx]
  refine item i _ _ ?_
  have here := congrArg (·[i]?) same
  simpa [List.getElem?_map, inside, inside'] using here

/-- The outline of an item comes from that of its statement. -/
theorem Function.item_outline (i : Nat) (f f' : Function) (same : f.outline = f'.outline) :
    (f.item i).outline = (f'.item i).outline := by
  obtain ⟨result, name, params, offset, line⟩ := f
  obtain ⟨result', name', params', offset', line'⟩ := f'
  obtain ⟨rfl, rfl, -, rfl, rfl⟩ := Function.mk.inj same
  rfl

/-- The items of declarations with the same outline have the same outline. -/
theorem Declaration.item_outline (i : Nat) (d d' : Declaration) (same : d.outline = d'.outline) :
    (d.item i).outline = (d'.item i).outline := by
  obtain ⟨type, name, value, offset, line⟩ := d
  obtain ⟨type', name', value', offset', line'⟩ := d'
  obtain ⟨-, rfl, -, rfl, rfl⟩ := Declaration.mk.inj same
  rfl

/-- The items of conditions with the same outline have the same outline. -/
theorem Condition.item_outline (i : Nat) (c c' : Condition) (same : c.outline = c'.outline) :
    (c.item i).outline = (c'.item i).outline := by
  obtain ⟨branch, text, offset, line⟩ := c
  obtain ⟨branch', text', offset', line'⟩ := c'
  obtain ⟨rfl, -, rfl, rfl⟩ := Condition.mk.inj same
  cases branch <;> rfl

/-- The items of loops with the same outline have the same outline. -/
theorem Loop.item_outline (i : Nat) (l l' : Loop) (same : l.outline = l'.outline) :
    (l.item i).outline = (l'.item i).outline := by
  obtain ⟨word, text, offset, line, body⟩ := l
  obtain ⟨word', text', offset', line', body'⟩ := l'
  obtain ⟨-, -, rfl, rfl, rfl⟩ := Loop.mk.inj same
  rfl

/-- The kinds of items that phrases become. -/
theorem phraseItem_outline (f : Nat → Phrase → Item) (known : f ∈ [callItem, returnItem, printItem])
    (i : Nat) (p p' : Phrase) (same : p.outline = p'.outline) :
    (f i p).outline = (f i p').outline := by
  obtain ⟨name, text, offset, line⟩ := p
  obtain ⟨name', text', offset', line'⟩ := p'
  obtain ⟨rfl, -, rfl, rfl⟩ := Phrase.mk.inj same
  simp only [List.mem_cons, List.not_mem_nil, or_false] at known
  rcases known with rfl | rfl | rfl <;> rfl

/-- Closing loops keeps outlines the same. -/
theorem closeLoops_outline {flow flow' : Flow} (same : flow.outline = flow'.outline) (last : Text)
    (offset : Nat) (open_ : List (Text × Nat)) :
    (closeLoops flow last offset open_).outline = (closeLoops flow' last offset open_).outline := by
  induction open_ generalizing flow flow' last with
  | nil => exact congrArg (Chain.mk · last []) same
  | cons entry outer ih =>
    obtain ⟨id, stop⟩ := entry
    rw [closeLoops, closeLoops]
    split
    · split
      · exact ih same id
      · exact ih (Flow.outline_link same last id) id
    · exact congrArg (Chain.mk · last ((id, stop) :: outer)) same

/-- Items with the same outline keep the outlines of chains the same. -/
theorem Chain.outline_add {chain chain' : Chain} (same : chain.outline = chain'.outline)
    {item item' : Item} (agree : item.outline = item'.outline) :
    (chain.add item).outline = (chain'.add item').outline := by
  obtain ⟨flow, last, open_⟩ := chain
  obtain ⟨flow', last', open_'⟩ := chain'
  obtain ⟨flows, rfl, rfl⟩ := Chain.mk.inj same
  obtain ⟨offset, id, face, note, bodyEnd⟩ := item
  obtain ⟨offset', id', face', note', bodyEnd'⟩ := item'
  obtain ⟨rfl, rfl, looks, -, rfl⟩ := Item.mk.inj agree
  have closed := closeLoops_outline flows last offset open_
  unfold Chain.add
  generalize closeLoops flow last offset open_ = chain at closed
  generalize closeLoops flow' last offset open_ = chain' at closed
  obtain ⟨flow, last, open_⟩ := chain
  obtain ⟨flow', last', open_'⟩ := chain'
  obtain ⟨flows, rfl, rfl⟩ := Chain.mk.inj closed
  have added := Flow.outline_add flows last id looks note note'
  cases bodyEnd <;> exact congrArg (Chain.mk · id _) added

/-- **Flowcharts of items** that agree in their outlines do so, too. -/
theorem Program.flow_outline {p p' : Program} (code : p.code.length = p'.code.length)
    (items : p.items.map Item.outline = p'.items.map Item.outline) :
    p.flow.1.outline = p'.flow.1.outline := by
  -- Item by item the chains have the same outline; then loops are closed and the flow is finished.
  have folded : ∀ (items items' : List Item) (chain chain' : Chain),
      chain.outline = chain'.outline → items.map Item.outline = items'.map Item.outline →
        (items.foldl Chain.add chain).outline = (items'.foldl Chain.add chain').outline := by
    intro items
    induction items with
    | nil =>
      intro items' chain chain' same agree
      obtain rfl := List.map_eq_nil_iff.1 agree.symm
      exact same
    | cons item items ih =>
      intro items' chain chain' same agree
      obtain ⟨item', items', rfl, first, rest⟩ := List.map_eq_cons_iff.1 agree.symm
      exact ih items' _ _ (Chain.outline_add same first.symm) rest.symm
  have chained := folded _ _ ⟨Flow.start, Flowchart.startId, []⟩ ⟨Flow.start, Flowchart.startId, []⟩
    rfl items
  unfold Program.flow
  generalize p.items.foldl Chain.add _ = chain at chained
  generalize p'.items.foldl Chain.add _ = chain' at chained
  obtain ⟨flow, last, open_⟩ := chain
  obtain ⟨flow', last', open_'⟩ := chain'
  obtain ⟨flows, rfl, rfl⟩ := Chain.mk.inj chained
  have closed := closeLoops_outline flows last (p.code.length + 1) open_
  simp only [← code]
  generalize closeLoops flow last _ open_ = chain at closed
  generalize closeLoops flow' last _ open_ = chain' at closed
  obtain ⟨flow, last, open_⟩ := chain
  obtain ⟨flow', last', open_'⟩ := chain'
  obtain ⟨flows, rfl, -⟩ := Chain.mk.inj closed
  exact Flow.outline_finish flows last

/-! ## Programs -/

/-- **The items of a reworded program** agree in their outlines. -/
theorem items_reworded (wordless : Wordless w) (source source' : Text) :
    (Program.of source' (w.reworded front back)).items.map Item.outline =
      (Program.of source (w.original front back)).items.map Item.outline := by
  have sorted (items : List Item) :
      (items.mergeSort fun a b => a.offset ≤ b.offset).map Item.outline =
        (items.map Item.outline).mergeSort fun a b => a.offset ≤ b.offset :=
    List.map_mergeSort fun a _ b _ => rfl
  simp only [Program.items, Program.of, sorted, List.map_append,
    mapIdx_outline Function.item_outline (functions_reworded wordless),
    mapIdx_outline Declaration.item_outline (declarations_reworded wordless),
    arrays_reworded wordless,
    mapIdx_outline Condition.item_outline (conditions_reworded wordless),
    mapIdx_outline Loop.item_outline (loops_reworded wordless),
    mapIdx_outline (phraseItem_outline callItem (by simp)) (calls_reworded wordless),
    mapIdx_outline (phraseItem_outline returnItem (by simp))
      (phrases_reworded wordless returnPattern (by decide)),
    mapIdx_outline (phraseItem_outline printItem (by simp))
      (phrases_reworded wordless printPattern (by decide))]

/-- **A reworded program** is a program with the same outline and the same running time. -/
theorem Program.parse_reworded (wordless : Wordless w) (some_contents : w.old ≠ [])
    (in_code : Braced.inCode front (w.mark :: (w.old ++ w.mark :: back)) = true) {p : Program}
    (parsed : Program.parse (w.original front back) = .ok p) :
    ∃ p', Program.parse (w.reworded front back) = .ok p' ∧
      p'.flow.1.outline = p.flow.1.outline ∧ p'.complexity.time = p.complexity.time := by
  obtain ⟨code, blanked, checked, rfl⟩ := Program.parse_eq_ok.1 parsed
  obtain ⟨front', back', rfl, blanked'⟩ :=
    Braced.blankComments_reworded w known_alert some_contents in_code blanked
  have checked' := Braced.checkBrackets_alike (alike_alert w front' back')
  refine ⟨_, Program.parse_eq_ok.2 ⟨_, blanked', checked'.trans checked, rfl⟩, ?_, ?_⟩
  · exact Program.flow_outline (length_reworded w front' back') (items_reworded wordless _ _)
  · have loops : (findLoops (w.reworded front' back')).map Loop.outline =
        (findLoops (w.original front' back')).map Loop.outline := loops_reworded wordless
    have count := congrArg List.length loops
    rw [List.length_map, List.length_map] at count
    show (if (findLoops _).length = 0 then _ else _) = if (findLoops _).length = 0 then _ else _
    rw [count]

end FlowTrace.Cpp
