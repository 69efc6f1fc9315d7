import Mathlib.Data.List.DropRight
import Mathlib.Logic.Function.Iterate
import FlowTrace.Export.Exporter
import FlowTrace.Proofs.Text.Lines
import FlowTrace.Proofs.Text.Rewording

/-! # Safe labels

A label becomes part of the name of a directory, so it is made safe first: put in lower case, freed
of all bytes that mean something in a path, drawn together and trimmed at its hyphens, and cut. What
one step achieves outlasts the steps behind it, because these only cut pieces out of a text
(`Label.IsTidy.of_infix`). So the result is always safe (`Label.isSafe_safe`), and a label that is
safe in lower case is not changed any further (`Label.safe_eq_lower`).

Hyphens are drawn together in one pass. Replacing each two of them by one, again and again until
there are no two left, comes to the same (`Label.exists_rounds`). -/

namespace FlowTrace

/-! ## Replacing -/

namespace Text

variable {rules : List (Text × Text)} {P : UInt8 → Prop}

/-- What holds of the bytes that rules put in, and of those that no rule replaces, holds of the
result. -/
theorem forall_mem_substitute_go (made : ∀ rule ∈ rules, ∀ c ∈ rule.2, P c)
    (kept : ∀ c, (∀ rule ∈ rules, rule.1 ≠ [c]) → P c) (t : Text) (skip : Nat) (out : Text)
    (so_far : ∀ c ∈ out, P c) : ∀ c ∈ substitute.go rules t skip out, P c := by
  induction t generalizing skip out with
  | nil => exact so_far
  | cons d t ih =>
    cases skip with
    | succ skip => exact ih skip out so_far
    | zero =>
      rw [substitute.go]
      cases applies : rules.find? fun rule => rule.1.isPrefixOf (d :: t) with
      | some rule =>
        refine ih _ _ fun c member => ?_
        rcases List.mem_append.1 member with new | old
        · exact made rule (List.mem_of_find?_eq_some applies) c (List.mem_reverse.1 new)
        · exact so_far c old
      | none =>
        refine ih _ _ (List.forall_mem_cons.2 ⟨kept d fun rule member same => ?_, so_far⟩)
        have none_here := List.find?_eq_none.1 applies rule member
        rw [same] at none_here
        simp at none_here

/-- **Replacing** leaves what the rules make, and bytes that no rule is for. -/
theorem forall_mem_substitute (made : ∀ rule ∈ rules, ∀ c ∈ rule.2, P c)
    (kept : ∀ c, (∀ rule ∈ rules, rule.1 ≠ [c]) → P c) (t : Text) :
    ∀ c ∈ substitute rules t, P c := fun c member =>
  forall_mem_substitute_go made kept t 0 [] nofun c (List.mem_reverse.1 member)

/-- Where each rule needs a byte that is not there, nothing is replaced. -/
theorem substitute_eq_self {t : Text} (absent : ∀ rule ∈ rules, ∃ c ∈ rule.1, c ∉ t) :
    substitute rules t = t := by
  have passed : ∀ rest out : Text, (∀ c ∈ rest, c ∈ t) →
      substitute.go rules rest 0 out = rest.reverse ++ out := by
    intro rest
    induction rest with
    | nil => exact fun out _ => rfl
    | cons c rest ih =>
      intro out inside
      have none_applies : rules.find? (fun rule => rule.1.isPrefixOf (c :: rest)) = none := by
        refine List.find?_eq_none.2 fun rule member applies => ?_
        obtain ⟨d, needed, missing⟩ := absent rule member
        exact missing (inside d ((List.isPrefixOf_iff_prefix.1 applies).subset needed))
      rw [substitute.go, none_applies]
      simp only [ih _ fun d member => inside d (List.mem_cons_of_mem c member),
        List.reverse_cons, List.append_assoc, List.singleton_append]
  rw [substitute, passed t [] fun c member => member, List.append_nil, List.reverse_reverse]

/-! ## Trimming -/

/-- Trimming on the left leaves the end of a text. -/
theorem trimLeft_suffix (t : Text) (p : UInt8 → Bool) : t.trimLeft p <:+ t :=
  List.dropWhile_suffix p

/-- Trimming on the right leaves the beginning of a text. -/
theorem trimRight_prefix (t : Text) (p : UInt8 → Bool) : t.trimRight p <+: t :=
  List.rdropWhile_prefix p t

end Text

namespace Label

variable {t u : Text} {c : UInt8} {limit : Nat}

/-- The byte of the hyphen. -/
abbrev hyphen : UInt8 := 0x2D

/-- The only hyphen. -/
theorem isHyphen_iff : isHyphen c = true ↔ c = hyphen := beq_iff_eq

/-- What was trimmed on the left does not begin with a hyphen. -/
theorem not_hyphen_prefix_trimLeft (t : Text) : ¬ [hyphen] <+: t.trimLeft isHyphen := by
  intro ⟨rest, starts⟩
  have first : hyphen ∈ (t.dropWhile isHyphen).head? := by
    rw [← Text.trimLeft, ← starts]
    rfl
  exact absurd (Text.head_dropWhile first) (by decide)

/-- What was trimmed on the right does not end with a hyphen. -/
theorem not_hyphen_suffix_trimRight (t : Text) : ¬ [hyphen] <:+ t.trimRight isHyphen := by
  intro ⟨front, ends⟩
  have whole : t.rdropWhile isHyphen = front ++ [hyphen] := ends.symm
  have filled : t.rdropWhile isHyphen ≠ [] := by simp [whole]
  have last := List.rdropWhile_last_not isHyphen t filled
  simp only [whole, List.getLast_append_singleton] at last
  exact last (by decide)

/-! ## Drawing hyphens together -/

/-- Collapsing hyphens keeps the first byte. -/
theorem head_collapseHyphens (t : Text) : (collapseHyphens t).head? = t.head? := by
  fun_induction collapseHyphens t with
  | case1 => rfl
  | case2 c t twice ih =>
    rw [Bool.and_eq_true, Option.any_eq_true] at twice
    obtain ⟨first, d, next, second⟩ := twice
    rw [ih, next, List.head?_cons, isHyphen_iff.1 first, isHyphen_iff.1 second]
  | case3 c t once ih => rfl

/-- Collapsing hyphens only takes bytes away. -/
theorem collapseHyphens_sublist (t : Text) : (collapseHyphens t).Sublist t := by
  fun_induction collapseHyphens t with
  | case1 => exact .slnil
  | case2 c t twice ih => exact ih.cons c
  | case3 c t once ih => exact ih.cons_cons c

/-- Two hyphens begin a text. -/
theorem hyphens_prefix_iff :
    [hyphen, hyphen] <+: c :: t ↔ (isHyphen c && t.head?.any isHyphen) = true := by
  rw [List.cons_prefix_cons, Bool.and_eq_true, isHyphen_iff, eq_comm (a := hyphen)]
  refine and_congr_right' ?_
  cases t with
  | nil => simp
  | cons d t =>
    rw [List.cons_prefix_cons, List.head?_cons, Option.any_some, isHyphen_iff, eq_comm]
    exact and_iff_left List.nil_prefix

/-- **Drawn together**, no two hyphens are in a row. -/
theorem not_hyphens_infix_collapseHyphens (t : Text) :
    ¬ [hyphen, hyphen] <:+: collapseHyphens t := by
  fun_induction collapseHyphens t with
  | case1 => simp
  | case2 c t twice ih => exact ih
  | case3 c t once ih =>
    rw [List.infix_cons_iff, hyphens_prefix_iff, head_collapseHyphens]
    exact not_or.2 ⟨once, ih⟩

/-- A text without hyphens in a row stays as it is. -/
theorem collapseHyphens_eq_self (single : ¬ [hyphen, hyphen] <:+: t) : collapseHyphens t = t := by
  fun_induction collapseHyphens t with
  | case1 => rfl
  | case2 c t twice ih => exact absurd (hyphens_prefix_iff.2 twice).isInfix single
  | case3 c t once ih => rw [ih fun inside => single (List.infix_cons inside)]

/-! ### In rounds -/

/-- One **round** of drawing hyphens together: from left to right, each two become one. -/
def round (t : Text) : Text := t.replace "--" "-"

/-- A round takes one of two hyphens away. -/
theorem round_hyphens (t : Text) : round (hyphen :: hyphen :: t) = hyphen :: round t := by
  have divided : Text.split.go "--" (hyphen :: hyphen :: t) 0 [] =
      [] :: Text.split.go "--" t 0 [] := by
    have starts : (Text.of "--").isPrefixOf (hyphen :: hyphen :: t) = true :=
      List.isPrefixOf_iff_prefix.2 ⟨t, rfl⟩
    have filled : (!(Text.of "--").isEmpty) = true := by decide
    simp only [Text.split.go, starts, filled, Bool.and_self, if_true]
    rfl
  rw [round, Text.replace, Text.split, divided, Text.joinWith_cons _ (Text.split_ne_nil _ _ _)]
  rfl

/-- A round keeps a byte that is not the first of two hyphens. -/
theorem round_cons (single : (isHyphen c && t.head?.any isHyphen) ≠ true) :
    round (c :: t) = c :: round t := by
  have passed : (Text.of "--").isPrefixOf (c :: t) = false := by
    rw [Bool.eq_false_iff, ne_eq, List.isPrefixOf_iff_prefix]
    exact fun starts => single (hyphens_prefix_iff.1 starts)
  rw [round, Text.replace, Text.split]
  simp only [Text.split.go, passed, Bool.and_false, Bool.false_eq_true, if_false]
  rw [Text.join_split]
  rfl

/-- Texts as a round reads them, two hyphens at once. -/
@[elab_as_elim]
theorem round_induction {motive : Text → Prop} (nil : motive [])
    (pair : ∀ t, motive t → motive (hyphen :: hyphen :: t))
    (single : ∀ c t, (isHyphen c && t.head?.any isHyphen) ≠ true → motive t → motive (c :: t))
    (t : Text) : motive t := by
  -- a pair takes two bytes at once, so the induction is on the length
  induction length : t.length using Nat.strong_induction_on generalizing t with
  | _ n ih =>
    subst length
    cases t with
    | nil => exact nil
    | cons c t =>
      by_cases twice : (isHyphen c && t.head?.any isHyphen) = true
      · obtain ⟨rest, starts⟩ := hyphens_prefix_iff.2 twice
        rw [← starts] at ih ⊢
        have shorter : rest.length < ([hyphen, hyphen] ++ rest).length := by
          rw [List.length_append]
          exact Nat.lt_add_of_pos_left Nat.two_pos
        exact pair rest (ih _ shorter rest rfl)
      · exact single c t twice (ih _ (Nat.lt_succ_self _) t rfl)

/-- A round keeps the first byte. -/
theorem head_round (t : Text) : (round t).head? = t.head? := by
  induction t using round_induction with
  | nil => rfl
  | pair t ih => rw [round_hyphens, List.head?_cons, List.head?_cons]
  | single c t single ih => rw [round_cons single, List.head?_cons, List.head?_cons]

/-- A round changes nothing for what the hyphens are drawn together to. -/
theorem collapseHyphens_round (t : Text) : collapseHyphens (round t) = collapseHyphens t := by
  induction t using round_induction with
  | nil => rfl
  | pair t ih => simp [round_hyphens, collapseHyphens, head_round, ih, isHyphen_iff]
  | single c t single ih => rw [round_cons single, collapseHyphens, collapseHyphens, head_round, ih]

/-- A round does not make a text longer. -/
theorem length_round_le (t : Text) : (round t).length ≤ t.length := by
  induction t using round_induction with
  | nil => exact le_rfl
  | pair t ih =>
    rw [round_hyphens, List.length_cons, List.length_cons, List.length_cons]
    omega
  | single c t single ih =>
    rw [round_cons single, List.length_cons, List.length_cons]
    omega

/-- A round shortens a text with two hyphens in a row. -/
theorem length_round_lt (double : [hyphen, hyphen] <:+: t) : (round t).length < t.length := by
  induction t using round_induction with
  | nil => exact absurd double (by simp)
  | pair t ih =>
    have rest := length_round_le t
    rw [round_hyphens, List.length_cons, List.length_cons, List.length_cons]
    omega
  | single c t single ih =>
    rw [List.infix_cons_iff, hyphens_prefix_iff] at double
    have rest := ih (double.resolve_left single)
    rw [round_cons single, List.length_cons, List.length_cons]
    omega

/-- **Rounds** go on until no two hyphens are in a row, and end with what one pass makes of the
text. -/
theorem exists_rounds (t : Text) : ∃ n, round^[n] t = collapseHyphens t ∧
    ∀ m < n, [hyphen, hyphen] <:+: round^[m] t := by
  -- each of them makes the text shorter, and none changes what it is drawn together to
  induction length : t.length using Nat.strong_induction_on generalizing t with
  | _ l ih =>
    subst length
    by_cases double : [hyphen, hyphen] <:+: t
    · obtain ⟨n, ends, before⟩ := ih _ (length_round_lt double) (round t) rfl
      refine ⟨n + 1, ?_, fun m early => ?_⟩
      · rw [Function.iterate_succ_apply, ends, collapseHyphens_round]
      · cases m with
        | zero => exact double
        | succ m =>
          rw [Function.iterate_succ_apply]
          exact before m (Nat.lt_of_succ_lt_succ early)
    · exact ⟨0, (collapseHyphens_eq_self double).symm, nofun⟩

/-! ## Safe texts -/

/-- The bytes that no name made of a label has in it. -/
def barred : Text := " /\\:.+*?\"<>|,'!@#$%^&()[]\x7b\x7d;="

/-- They are those that something else is put for. -/
theorem barred_eq : barred = replacements.flatMap (·.1) := by decide

/-- Each of them has a rule of its own. -/
theorem exists_rule (is_barred : c ∈ barred) : ∃ rule ∈ replacements, rule.1 = [c] := by
  have one_byte : ∀ rule ∈ replacements, rule.1.length = 1 := by decide
  rw [barred_eq] at is_barred
  obtain ⟨rule, member, inside⟩ := List.mem_flatMap.1 is_barred
  obtain ⟨d, only⟩ := List.length_eq_one_iff.1 (one_byte rule member)
  rw [only, List.mem_singleton] at inside
  exact ⟨rule, member, inside ▸ only⟩

/-- A text is **tidy** if it has no barred bytes, and no two hyphens in a row. -/
structure IsTidy (t : Text) : Prop where
  /-- No byte of it is barred. -/
  notMem : ∀ c ∈ barred, c ∉ t
  /-- It has hyphens only one by one. -/
  single : ¬ [hyphen, hyphen] <:+: t

/-- A tidy text is **trimmed** if its hyphens are between other bytes. -/
structure IsTrimmed (t : Text) : Prop extends IsTidy t where
  /-- It does not start with a hyphen. -/
  start : ¬ [hyphen] <+: t
  /-- It does not end with a hyphen. -/
  last : ¬ [hyphen] <:+ t

/-- A text is **safe** as a component of a path, of at most `limit` bytes. -/
structure IsSafe (limit : Nat) (t : Text) : Prop extends IsTrimmed t where
  /-- It is not empty. -/
  ne_nil : t ≠ []
  /-- It keeps to the limit. -/
  length_le : t.length ≤ limit

/-- What is cut out of a tidy text is tidy. -/
theorem IsTidy.of_infix (tidy : IsTidy t) (inside : u <:+: t) : IsTidy u where
  notMem c is_barred member := tidy.notMem c is_barred (inside.subset member)
  single double := tidy.single (double.trans inside)

/-- Replacing leaves no barred byte behind, and hyphens drawn together are single. -/
theorem isTidy_collapseHyphens (t : Text) :
    IsTidy (collapseHyphens (Text.substitute replacements t)) where
  notMem c is_barred member := by
    have replaced : ∀ d ∈ Text.substitute replacements t, d ∉ barred := by
      have made : ∀ rule ∈ replacements, ∀ d ∈ rule.2, d ∉ barred := by decide +kernel
      refine Text.forall_mem_substitute made (fun d unused is_barred => ?_) t
      obtain ⟨rule, member, same⟩ := exists_rule is_barred
      exact unused rule member same
    exact replaced c ((collapseHyphens_sublist _).subset member) is_barred
  single := not_hyphens_infix_collapseHyphens _

/-- A tidy text stays tidy when its hyphens at the ends are taken away. -/
theorem IsTidy.trim (tidy : IsTidy t) : IsTrimmed ((t.trimLeft isHyphen).trimRight isHyphen) where
  toIsTidy := tidy.of_infix
    ((Text.trimRight_prefix _ _).isInfix.trans (Text.trimLeft_suffix _ _).isInfix)
  start starts := not_hyphen_prefix_trimLeft t (starts.trans (Text.trimRight_prefix _ _))
  last := not_hyphen_suffix_trimRight _

/-- Cutting can uncover a hyphen at the end only, where the text is trimmed once more. -/
theorem IsTrimmed.cut (trimmed : IsTrimmed t) (limit : Nat) :
    IsTrimmed (if limit < t.length then Text.trimRight (t.take limit) isHyphen else t) := by
  split
  · have front : Text.trimRight (t.take limit) isHyphen <+: t :=
      (Text.trimRight_prefix _ _).trans (List.take_prefix _ _)
    exact { toIsTidy := trimmed.of_infix front.isInfix
            start := fun starts => trimmed.start (starts.trans front)
            last := not_hyphen_suffix_trimRight _ }
  · exact trimmed

/-- A text that is cut is not longer than the limit. -/
theorem length_cut_le (t : Text) (limit : Nat) :
    (if limit < t.length then Text.trimRight (t.take limit) isHyphen else t).length ≤ limit := by
  split
  · exact (Text.trimRight_prefix _ _).length_le.trans (List.length_take_le _ _)
  · exact Nat.not_lt.1 ‹_›

/-- The word that stands for an empty text is safe itself. -/
theorem IsTrimmed.fill (trimmed : IsTrimmed t) (fits : t.length ≤ limit)
    (room : (Text.of "export").length ≤ limit) :
    IsSafe limit (if t.isEmpty then Text.of "export" else t) := by
  split
  · have clean : ∀ c ∈ barred, c ∉ Text.of "export" := by decide +kernel
    exact { notMem := clean, single := by decide, start := by decide, last := by decide
            ne_nil := by decide, length_le := room }
  · rename_i filled
    exact { trimmed with ne_nil := by simpa using filled, length_le := fits }

/-- **A label made safe is safe**, whatever bytes it is made of, where there is room for the word
that stands for an empty one. -/
theorem isSafe_safe (label : Text) (room : (Text.of "export").length ≤ limit) :
    IsSafe limit (safe label limit) :=
  have tidy := isTidy_collapseHyphens label.lower
  (tidy.trim.cut limit).fill (length_cut_le _ limit) room

/-- A text that begins with no hyphen stays as it is on the left. -/
theorem trimLeft_eq_self (start : ¬ [hyphen] <+: t) : t.trimLeft isHyphen = t := by
  cases t with
  | nil => rfl
  | cons c t =>
    refine List.dropWhile_cons_of_neg fun is_hyphen => start ?_
    rw [isHyphen_iff.1 is_hyphen]
    exact ⟨t, rfl⟩

/-- A text that ends with no hyphen stays as it is on the right. -/
theorem trimRight_eq_self (last : ¬ [hyphen] <:+ t) : t.trimRight isHyphen = t := by
  refine List.rdropWhile_eq_self_iff.2 fun filled is_hyphen => last ?_
  rw [← isHyphen_iff.1 is_hyphen]
  exact ⟨t.dropLast, List.dropLast_append_getLast filled⟩

/-- **A label that is safe** in lower case is not changed any further. -/
theorem safe_eq_lower {label : Text} (is_safe : IsSafe limit label.lower) :
    safe label limit = label.lower := by
  have kept : Text.substitute replacements label.lower = label.lower := by
    refine Text.substitute_eq_self fun rule member => ?_
    have filled : ∀ rule ∈ replacements, rule.1 ≠ [] := by decide
    obtain ⟨c, needed⟩ := List.exists_mem_of_ne_nil _ (filled rule member)
    have is_barred : c ∈ barred := barred_eq ▸ List.mem_flatMap.2 ⟨rule, member, needed⟩
    exact ⟨c, needed, is_safe.notMem c is_barred⟩
  have filled : ¬ label.lower.isEmpty = true := by simpa using is_safe.ne_nil
  rw [safe, kept, collapseHyphens_eq_self is_safe.single, trimLeft_eq_self is_safe.start,
    trimRight_eq_self is_safe.last, if_neg (Nat.not_lt.2 is_safe.length_le), if_neg filled]

end Label

end FlowTrace
