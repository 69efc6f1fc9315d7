import FlowTrace.Braced.Source
import FlowTrace.Proofs.Attempt
import FlowTrace.Proofs.Braced.Extent
import FlowTrace.Proofs.Text.Rewording
import Mathlib.Data.List.Forall2

/-! # Reworded literals in languages with braces

How literals are passed over and brackets are paired depends on a few bytes only. When the contents
of a literal are reworded without any of them, all lengths and partners stay the same
(`literalLength_alike`, `checkBrackets_alike`, `closing_alike`), wherever the readers take literals
to begin.

Comments are found by two more bytes, which contents may well have. So here it matters where the
literal stands: if that is outside comments and other literals (`inCode`), blanking leaves the
literal as it is, and does the same to what stands in front of it and behind it
(`blankComments_reworded`). -/

namespace FlowTrace

/-- Two texts are **alike** to a reader that is alert to some bytes: byte by byte they are equal, or
neither byte is one of these. -/
def Text.Alike (alert : Text) : Text → Text → Prop :=
  List.Forall₂ fun c d => c = d ∨ c ∉ alert ∧ d ∉ alert

namespace Text.Alike

variable {alert t t' part : Text}

/-- A text is alike to itself. -/
theorem refl (t : Text) : Alike alert t t := List.forall₂_same.2 fun _ _ => Or.inl rfl

/-- Texts that are alike are of the same length. -/
theorem length_eq (alike : Alike alert t t') : t'.length = t.length :=
  (List.Forall₂.length_eq alike).symm

/-- A reader that is alert to less. -/
theorem mono {alert' : Text} (alike : Alike alert t t') (less : ∀ c ∈ alert', c ∈ alert) :
    Alike alert' t t' :=
  List.Forall₂.imp (fun _ _ same => same.imp id fun absent =>
    ⟨fun member => absent.1 (less _ member), fun member => absent.2 (less _ member)⟩) alike

/-- Texts that are alike are so behind any number of bytes. -/
theorem drop (alike : Alike alert t t') (n : Nat) : Alike alert (t.drop n) (t'.drop n) :=
  List.forall₂_drop n alike

/-- What is looked for has only bytes that the reader is alert to. -/
theorem isPrefixOf_eq (alike : Alike alert t t') (known : ∀ c ∈ part, c ∈ alert) :
    part.isPrefixOf t' = part.isPrefixOf t := by
  induction part generalizing t t' with
  | nil => rfl
  | cons d part ih =>
    rw [List.forall_mem_cons] at known
    cases alike with
    | nil => rfl
    | cons same rest =>
      simp only [List.isPrefixOf]
      rcases same with rfl | ⟨absent, absent'⟩
      · rw [ih rest known.2]
      · have other {c : UInt8} (absent : c ∉ alert) : (d == c) = false :=
          beq_eq_false_iff_ne.2 fun same => absent (same ▸ known.1)
        rw [other absent, other absent', Bool.false_and, Bool.false_and]

/-- A part whose bytes matter is found at the same place. -/
theorem indexOf_eq (alike : Alike alert t t') (known : ∀ c ∈ part, c ∈ alert) :
    t'.indexOf? part = t.indexOf? part := by
  have counted (n : Nat) : indexOf?.go part t' n = indexOf?.go part t n := by
    induction alike generalizing n with
    | nil => rfl
    | cons same rest ih =>
      have here := isPrefixOf_eq (List.Forall₂.cons same rest) known
      rw [indexOf?.go, indexOf?.go, here, ih]
  exact counted 0

end Text.Alike

/-- A search that counts from a number finds nothing below it. -/
theorem Text.le_of_indexOf_go {t part : Text} {n i : Nat}
    (found : indexOf?.go part t n = some i) : n ≤ i := by
  induction t generalizing n with
  | nil =>
    rw [indexOf?.go] at found
    split at found
    · exact Nat.le_of_eq (Option.some.inj found)
    · cases found
  | cons c t ih =>
    rw [indexOf?.go] at found
    split at found
    · exact Nat.le_of_eq (Option.some.inj found)
    · exact Nat.le_of_succ_le (ih found)

/-- Whether a text begins with a part depends on nothing behind the length of the part. -/
theorem Text.isPrefixOf_append {t part rest : Text} (rest' : Text)
    (short : part.length ≤ t.length) (begins : part.isPrefixOf (t ++ rest) = true) :
    part.isPrefixOf (t ++ rest') = true := by
  have inside : part <+: t :=
    List.prefix_of_prefix_length_le (List.isPrefixOf_iff_prefix.1 begins) (List.prefix_append t rest)
      short
  exact List.isPrefixOf_iff_prefix.2 (inside.trans (List.prefix_append t rest'))

/-- What is found in the first part of a text is found there whatever follows. -/
theorem Text.indexOf_append {t part : Text} {i : Nat} (rest rest' : Text) (some_part : part ≠ [])
    (found : (t ++ rest).indexOf? part = some i) (inside : i + part.length ≤ t.length) :
    (t ++ rest').indexOf? part = some i := by
  have least : 0 < part.length := List.length_pos_iff.2 some_part
  have counted : ∀ (t : Text) (n : Nat), indexOf?.go part (t ++ rest) n = some i →
      i + part.length ≤ n + t.length → indexOf?.go part (t ++ rest') n = some i := by
    intro t
    induction t with
    | nil =>
      intro n found inside
      have later := le_of_indexOf_go found
      rw [List.length_nil] at inside
      omega
    | cons c t ih =>
      intro n found inside
      have later := le_of_indexOf_go found
      have short : part.length ≤ (c :: t).length := by omega
      have same (rest rest' : Text) (begins : part.isPrefixOf (c :: (t ++ rest)) = true) :
          part.isPrefixOf (c :: (t ++ rest')) = true :=
        isPrefixOf_append rest' short begins
      rw [List.cons_append, indexOf?.go] at found ⊢
      by_cases here : part.isPrefixOf (c :: (t ++ rest)) = true
      · rw [if_pos here] at found
        rw [if_pos (same rest rest' here), found]
      · rw [if_neg here] at found
        rw [if_neg (mt (same rest' rest) here)]
        exact ih (n + 1) found (by rw [List.length_cons] at inside; omega)
  exact counted t 0 found (by rwa [Nat.zero_add])

/-- A text is alike to the reworded one. -/
theorem Rewording.alike {loud : Loud} (w : Rewording loud) (front back : Text) :
    Text.Alike loud.bytes (w.original front back) (w.reworded front back) := by
  have contents : Text.Alike loud.bytes w.old w.new := by
    refine List.forall₂_iff_get.2 ⟨w.length_new.symm, fun i inside inside' => Or.inr ⟨?_, ?_⟩⟩
    · exact w.quiet_old _ (List.get_mem w.old ⟨i, inside⟩)
    · exact w.quiet_new _ (List.get_mem w.new ⟨i, inside'⟩)
  exact List.rel_append (Text.Alike.refl front) (.cons (Or.inl rfl)
    (List.rel_append contents (Text.Alike.refl (w.mark :: back))))

namespace Braced

/-- The bytes that literals and brackets are read by. -/
def alert : Text := "\"'\\\n()[]\x7b\x7d"

variable {t t' : Text} {c : UInt8}

/-! ## Literals and brackets -/

/-- A byte that does not matter is no mark. -/
theorem isMark_eq_false (dull : c ∉ alert) : isMark c = false := by
  rw [Bool.eq_false_iff]
  intro mark
  rw [isMark, Bool.or_eq_true, beq_iff_eq, beq_iff_eq] at mark
  rcases mark with rfl | rfl <;> exact dull (by decide)

/-- A byte that does not matter opens no bracket. -/
theorem isOpening_eq_false (dull : c ∉ alert) : isOpening c = false := by
  rw [Bool.eq_false_iff]
  intro opening
  rw [isOpening, Bool.or_eq_true, Bool.or_eq_true, beq_iff_eq, beq_iff_eq, beq_iff_eq] at opening
  rcases opening with (rfl | rfl) | rfl <;> exact dull (by decide)

/-- A byte that does not matter closes no bracket. -/
theorem isClosing_eq_false (dull : c ∉ alert) : isClosing c = false := by
  rw [Bool.eq_false_iff]
  intro closing
  rw [isClosing, Bool.or_eq_true, Bool.or_eq_true, beq_iff_eq, beq_iff_eq, beq_iff_eq] at closing
  rcases closing with (rfl | rfl) | rfl <;> exact dull (by decide)

/-- A byte that does not matter is none that does. -/
theorem beq_eq_false_of_dull (dull : c ∉ alert) {d : UInt8} (known : d ∈ alert) :
    (c == d) = false := beq_eq_false_iff_ne.2 fun same => dull (same ▸ known)

/-- Literals in texts that are alike are of the same length. -/
theorem plainLength_alike (alike : Text.Alike alert t t') {mark : UInt8} (known : mark ∈ alert)
    (escaped : Bool) (n : Nat) : plainLength? mark t' escaped n = plainLength? mark t escaped n := by
  induction alike generalizing escaped n with
  | nil => rfl
  | cons same _ ih =>
    cases escaped with
    | true => exact ih false (n + 1)
    | false =>
      rcases same with rfl | ⟨dull, dull'⟩
      · simp only [plainLength?, ih]
      · have backslash : Text.backslash ∈ alert := by decide
        have newline : Text.newline ∈ alert := by decide
        simp only [plainLength?, beq_eq_false_of_dull dull backslash,
          beq_eq_false_of_dull dull' backslash, beq_eq_false_of_dull dull newline,
          beq_eq_false_of_dull dull' newline, beq_eq_false_of_dull dull known,
          beq_eq_false_of_dull dull' known, Bool.false_eq_true, if_false]
        exact ih false (n + 1)

/-- **Literals are equally long** for readers that are alert to the same bytes. -/
theorem literalLength_alike (alike : Text.Alike alert t t') (known : ∀ c ∈ t.head?, c ∈ alert) :
    literalLength? t' = literalLength? t := by
  have marks : ∀ c ∈ blockMark, c ∈ alert := Text.forall_mem_of_all (by decide)
  rw [literalLength?.eq_def, literalLength?.eq_def, alike.isPrefixOf_eq marks,
    (alike.drop 3).indexOf_eq marks]
  cases alike with
  | nil => rfl
  | cons same rest =>
    rcases same with rfl | ⟨dull, -⟩
    · simp only [plainLength_alike rest (known _ rfl)]
    · exact absurd (known _ rfl) dull

/-- Marks matter. -/
theorem mem_alert_of_isMark (mark : isMark c = true) : c ∈ alert := by
  by_contra dull
  rw [isMark_eq_false dull] at mark
  cases mark

/-- The rests of literals in texts that are alike are of the same length. -/
theorem literalTail_alike (alike : Text.Alike alert t t') (mark : isMark c = true) :
    literalTail (c :: t') = literalTail (c :: t) := by
  have same : literalLength? (c :: t') = literalLength? (c :: t) :=
    literalLength_alike (.cons (Or.inl rfl) alike) fun d member =>
      Option.some.inj member ▸ mem_alert_of_isMark mark
  rw [literalTail, literalTail, same]

/-- The check of brackets comes to the same in texts that are alike. -/
theorem checkFrom_alike (alike : Text.Alike alert t t') (skip line : Nat)
    (open_ : List (UInt8 × Nat)) : checkFrom t' skip line open_ = checkFrom t skip line open_ := by
  induction alike generalizing skip line open_ with
  | nil => rfl
  | cons same rest ih =>
    rcases same with rfl | ⟨dull, dull'⟩
    · cases skip with
      | succ skip => simp only [checkFrom, ih]
      | zero =>
        simp only [checkFrom, ih]
        split
        · rename_i mark
          rw [literalTail_alike rest mark]
        · rfl
    · have newline : Text.newline ∈ alert := by decide
      cases skip <;>
        simp only [checkFrom, ih, isMark_eq_false dull, isMark_eq_false dull',
          isOpening_eq_false dull, isOpening_eq_false dull', isClosing_eq_false dull,
          isClosing_eq_false dull', beq_eq_false_of_dull dull newline,
          beq_eq_false_of_dull dull' newline, Bool.false_eq_true, if_false]

/-- **Brackets are paired alike** by readers that are alert to the same bytes. -/
theorem checkBrackets_alike (alike : Text.Alike alert t t') :
    checkBrackets t' = checkBrackets t := checkFrom_alike alike 0 1 []

/-- The partner of a bracket is found at the same place in texts that are alike. -/
theorem closingFrom_alike (alike : Text.Alike alert t t') (offset skip : Nat) (depth : Int) :
    closingFrom? t' offset skip depth = closingFrom? t offset skip depth := by
  induction alike generalizing offset skip depth with
  | nil => rfl
  | cons same rest ih =>
    cases skip with
    | succ skip => simp only [closingFrom?, ih]
    | zero =>
      rcases same with rfl | ⟨dull, dull'⟩
      · simp only [closingFrom?, ih]
        split
        · rename_i mark
          rw [literalTail_alike rest mark]
        · rfl
      · simp only [closingFrom?, ih, isMark_eq_false dull, isMark_eq_false dull',
          isOpening_eq_false dull, isOpening_eq_false dull', isClosing_eq_false dull,
          isClosing_eq_false dull', Bool.false_eq_true, if_false]

/-- **The partner of a bracket** is the same to readers that are alert to the same bytes. -/
theorem closing_alike (alike : Text.Alike alert t t') (opening : Nat) :
    closing? t' opening = closing? t opening := closingFrom_alike (alike.drop opening) _ _ _

/-- Where a partner is found a bracket is closed. -/
theorem isClosing_of_closingFrom {offset skip stop : Nat} {depth : Int}
    (found : closingFrom? t offset skip depth = some stop) :
    ∃ k c, stop = offset + k ∧ (t.drop k).head? = some c ∧ isClosing c = true := by
  induction t generalizing offset skip depth with
  | nil => cases found
  | cons c t ih =>
    have later {skip : Nat} {depth : Int}
        (found : closingFrom? t (offset + 1) skip depth = some stop) :
        ∃ k d, stop = offset + k ∧ ((c :: t).drop k).head? = some d ∧ isClosing d = true := by
      obtain ⟨k, d, rfl, here, closing⟩ := ih found
      exact ⟨k + 1, d, by omega, here, closing⟩
    cases skip with
    | succ skip => exact later found
    | zero =>
      rw [closingFrom?] at found
      split_ifs at found with mark opening closing last
      · exact later found
      · exact later found
      · exact ⟨0, c, (Option.some.inj found).symm, rfl, closing⟩
      · exact later found
      · exact later found

/-- **The partner of a bracket** is a closing bracket. -/
theorem isClosing_of_closing {opening stop : Nat} (found : closing? t opening = some stop) :
    ∃ c, (t.drop stop).head? = some c ∧ isClosing c = true := by
  obtain ⟨k, c, rfl, here, closing⟩ := isClosing_of_closingFrom found
  exact ⟨c, by rwa [← List.drop_drop], closing⟩

/-! ## Comments -/

/-- The region that a byte of a region leads to; `t` is what follows the byte. -/
def Region.next (region : Region) (c : UInt8) (t : Text) : Except Fault Region :=
  match region with
  | .literal (left + 1) => .ok (.literal left)
  | .block (left + 1) => .ok (.block left)
  | _ =>
    if region == .line && c != Text.newline then .ok .line
    else
      match regionAt c t with
      | .ok (.literal n) => .ok (.literal (n - 1))
      | .ok (.block n) => .ok (.block (n - 1))
      | other => other

/-- The region behind the text `front`, when `rest` follows. -/
def regionBehind (rest : Text) : Region → Text → Except Fault Region
  | region, [] => .ok region
  | region, c :: front =>
    match region.next c (front ++ rest) with
    | .ok region' => regionBehind rest region' front
    | .error fault => .error fault

/-- Whether literals and comments are over. -/
def Region.isOver : Region → Bool
  | .code | .literal 0 | .block 0 => true
  | _ => false

/-- Whether what follows the text `front` stands **in code**: outside of comments and literals. -/
def inCode (front rest : Text) : Bool :=
  match regionBehind rest .code front with
  | .ok region => region.isOver
  | .error _ => false

/-- What a byte that leads to a region is overwritten with. -/
def Region.shown (region : Region) (c : UInt8) : UInt8 :=
  match region with
  | .block _ => blankByte c
  | .line => 0x20
  | _ => c

/-- The number of the line behind a byte. -/
def lineBehind (line : Nat) (c : UInt8) : Nat := if c == Text.newline then line + 1 else line

/-- Behind a region that is over, a byte is read like one of program text. -/
theorem next_of_over {region : Region} (over_ : region.isOver = true) (c : UInt8) (t : Text) :
    region.next c t = Region.next .code c t := by
  cases region with
  | code => rfl
  | line => cases over_
  | literal left =>
    cases left with
    | zero => rfl
    | succ left => cases over_
  | block left =>
    cases left with
    | zero => rfl
    | succ left => cases over_

/-- Where a region is over the next byte is read as program text. -/
theorem blank_of_over {region : Region} (over_ : region.isOver = true) (line : Nat) (c : UInt8)
    (t out : Text) : blank region line (c :: t) out = blank .code line (c :: t) out := by
  cases region with
  | code => rfl
  | line => cases over_
  | literal left =>
    cases left with
    | zero => rfl
    | succ left => cases over_
  | block left =>
    cases left with
    | zero => rfl
    | succ left => cases over_

/-- Blanking goes on with the region that a byte of program text leads to. -/
theorem blank_code (c : UInt8) (t : Text) (line : Nat) (out : Text) :
    blank .code line (c :: t) out =
      match Region.next .code c t with
      | .ok region' => blank region' (lineBehind line c) t (region'.shown c :: out)
      | .error fault => .error ⟨line, fault⟩ := by
  have outside : ¬ (Region.code == .line && c != Text.newline) = true := Bool.false_ne_true
  simp only [blank, Region.next, if_neg outside]
  cases regionAt c t with
  | error fault => rfl
  | ok region => cases region <;> rfl

/-- Blanking goes on with the region that a byte leads to. -/
theorem blank_step (region : Region) (c : UInt8) (t : Text) (line : Nat) (out : Text) :
    blank region line (c :: t) out =
      match region.next c t with
      | .ok region' => blank region' (lineBehind line c) t (region'.shown c :: out)
      | .error fault => .error ⟨line, fault⟩ := by
  by_cases over_ : region.isOver = true
  · rw [blank_of_over over_, next_of_over over_]
    exact blank_code c t line out
  · cases region with
    | code => exact absurd rfl over_
    | line =>
      by_cases apart : (Region.line == .line && c != Text.newline) = true
      · have next : Region.next .line c t = .ok .line := if_pos apart
        rw [next]
        exact if_pos apart
      · have next : Region.next .line c t = Region.next .code c t := if_neg apart
        have same : blank .line line (c :: t) out = blank .code line (c :: t) out := if_neg apart
        rw [next, same]
        exact blank_code c t line out
    | literal left =>
      cases left with
      | zero => exact absurd rfl over_
      | succ left => rfl
    | block left =>
      cases left with
      | zero => exact absurd rfl over_
      | succ left => rfl

/-- What has been written out stays in front of what follows. -/
theorem blank_out {region : Region} {line : Nat} {out code : Text}
    (blanked : blank region line t out = .ok code) : ∃ shown, code = out.reverse ++ shown ∧
      ∀ out', blank region line t out' = .ok (out'.reverse ++ shown) := by
  induction t generalizing region line out with
  | nil =>
    cases blanked
    exact ⟨[], (List.append_nil _).symm, fun out' => by rw [List.append_nil]; rfl⟩
  | cons c t ih =>
    rw [blank_step] at blanked
    cases next : region.next c t with
    | error fault => rw [next] at blanked; cases blanked
    | ok region' =>
      rw [next] at blanked
      obtain ⟨shown, rfl, all⟩ := ih blanked
      refine ⟨region'.shown c :: shown, by simp, fun out' => ?_⟩
      rw [blank_step, next]
      simpa using all (region'.shown c :: out')

/-- A comment that is over in front of a text has ended in it. -/
theorem block_le {front rest : Text} {left : Nat} {region : Region}
    (behind : regionBehind rest (.block left) front = .ok region) (over_ : region.isOver = true) :
    left ≤ front.length := by
  induction front generalizing left with
  | nil =>
    cases behind
    cases left with
    | zero => exact Nat.le_refl 0
    | succ left => cases over_
  | cons c front ih =>
    cases left with
    | zero => exact Nat.zero_le _
    | succ left => exact Nat.succ_le_succ (ih behind)

section Twins

variable {front rest rest' : Text} (alike : Text.Alike alert rest rest')
  (head : rest'.head? = rest.head?)

include alike head

/-- The region of a byte does not depend on what is reworded behind it, unless it is a comment that
reaches there. -/
theorem regionAt_alike {region : Region} (at_ : regionAt c (front ++ rest) = .ok region)
    (ended : ∀ n, region = .block n → n ≤ front.length + 1) :
    regionAt c (front ++ rest') = .ok region := by
  have whole : Text.Alike alert (front ++ rest) (front ++ rest') :=
    List.rel_append (Text.Alike.refl front) alike
  have heads : (front ++ rest').head? = (front ++ rest).head? := by
    cases front with
    | nil => exact head
    | cons => rfl
  unfold regionAt at at_ ⊢
  rw [heads]
  split at at_
  · rename_i mark
    rw [if_pos mark]
    have same : literalLength? (c :: (front ++ rest')) = literalLength? (c :: (front ++ rest)) :=
      literalLength_alike (.cons (Or.inl rfl) whole) fun d member =>
        Option.some.inj member ▸ mem_alert_of_isMark mark
    rw [same]
    exact at_
  · rename_i no_mark
    rw [if_neg no_mark]
    split at at_
    · rename_i line
      rw [if_pos line]
      exact at_
    · rename_i no_line
      rw [if_neg no_line]
      split at at_
      -- The end of a comment is looked for in what follows, and must be found before what is reworded.
      · rename_i block
        rw [if_pos block]
        cases found : Text.indexOf? ((front ++ rest).drop 1) "*/" with
        | none => rw [found] at at_; cases at_
        | some n =>
          rw [found] at at_
          cases at_
          have inside := ended (n + 4) rfl
          cases front with
          | nil => exact absurd inside (by simp)
          | cons d front =>
            have found' := Text.indexOf_append rest rest' (by decide) found
              (show n + 2 ≤ front.length by rw [List.length_cons] at inside; omega)
            have shifted : (d :: front ++ rest').drop 1 = front ++ rest' := rfl
            rw [shifted, found']
      · rename_i no_block
        rw [if_neg no_block]
        exact at_

/-- Nor does the next region. -/
theorem next_alike {region region' last : Region}
    (next : region.next c (front ++ rest) = .ok region')
    (behind : regionBehind rest region' front = .ok last) (over_ : last.isOver = true) :
    region.next c (front ++ rest') = .ok region' := by
  -- A new region is entered at the byte, unless an old one goes on.
  have entered (is_next : (match regionAt c (front ++ rest) with
      | .ok (.literal n) => .ok (.literal (n - 1))
      | .ok (.block n) => .ok (.block (n - 1))
      | other => other) = Except.ok region') : (match regionAt c (front ++ rest') with
        | .ok (.literal n) => .ok (.literal (n - 1))
        | .ok (.block n) => .ok (.block (n - 1))
        | other => other) = Except.ok region' := by
    cases at_ : regionAt c (front ++ rest) with
    | error fault => rw [at_] at is_next; cases is_next
    | ok entered =>
      rw [at_] at is_next
      rw [regionAt_alike alike head at_]
      · exact is_next
      · rintro n rfl
        cases is_next
        have := block_le behind over_
        omega
  cases region with
  | code => exact entered next
  | line =>
    by_cases apart : (Region.line == .line && c != Text.newline) = true
    · exact (if_pos apart).trans ((if_pos apart).symm.trans next)
    · exact (if_neg apart).trans (entered ((if_neg apart).symm.trans next))
  | literal left =>
    cases left with
    | zero => exact entered next
    | succ left => exact next
  | block left =>
    cases left with
    | zero => exact entered next
    | succ left => exact next

/-- **What stands in front of a literal** is blanked whatever the literal holds. -/
theorem blank_front {region last : Region} (behind : regionBehind rest region front = .ok last)
    (over_ : last.isOver = true) (line : Nat) : ∃ line' shown, ∀ out,
      blank region line (front ++ rest) out = blank last line' rest (shown ++ out) ∧
        blank region line (front ++ rest') out = blank last line' rest' (shown ++ out) := by
  induction front generalizing region line with
  | nil =>
    cases behind
    exact ⟨line, [], fun out => ⟨rfl, rfl⟩⟩
  | cons c front ih =>
    cases next : region.next c (front ++ rest) with
    | error fault =>
      rw [regionBehind, next] at behind
      cases behind
    | ok region' =>
      rw [regionBehind, next] at behind
      have next' := next_alike alike head next behind over_
      obtain ⟨line', shown, same⟩ := ih behind (lineBehind line c)
      refine ⟨line', shown ++ [region'.shown c], fun out => ?_⟩
      simp only [List.append_assoc, List.cons_append, List.nil_append, blank_step, next, next']
      exact same _

end Twins

/-! ## Blanking around a literal -/

/-- The lines of a text are those behind its first byte and those of the rest. -/
theorem lineBehind_add (line : Nat) (c : UInt8) (t : Text) :
    lineBehind line c + t.newlines = line + Text.newlines (c :: t) := by
  rw [lineBehind, Text.newlines, Text.newlines, List.count_cons]
  split <;> omega

/-- A literal is left as it is. -/
theorem blank_literal (contents : Text) (left line : Nat) (out : Text) :
    blank (.literal (contents.length + left)) line (contents ++ t) out =
      blank (.literal left) (line + contents.newlines) t (contents.reverse ++ out) := by
  induction contents generalizing line out with
  | nil => rw [List.length_nil, Nat.zero_add]; rfl
  | cons c contents ih =>
    rw [List.length_cons, Nat.add_right_comm, List.cons_append, blank_step]
    show blank _ (lineBehind line c) _ _ = _
    rw [ih, lineBehind_add, List.reverse_cons, List.append_assoc]
    rfl

/-- The literal that a mark begins, when its contents are quiet. -/
theorem literalLength_quiet {mark : UInt8} {contents back : Text} (some_contents : contents ≠ [])
    (is_mark : isMark mark = true) (quiet : ∀ c ∈ contents, c ∉ alert) :
    literalLength? (mark :: (contents ++ mark :: back)) = some (contents.length + 2) := by
  have known := mem_alert_of_isMark is_mark
  have counted (contents : Text) (quiet : ∀ c ∈ contents, c ∉ alert) (n : Nat) :
      plainLength? mark (contents ++ mark :: back) false n = some (n + contents.length + 1) := by
    induction contents generalizing n with
    | nil =>
      have plain : (mark == Text.backslash) = false ∧ (mark == Text.newline) = false := by
        rw [isMark, Bool.or_eq_true, beq_iff_eq, beq_iff_eq] at is_mark
        rcases is_mark with rfl | rfl <;> decide
      simp [plainLength?, plain.1, plain.2]
    | cons c contents ih =>
      rw [List.forall_mem_cons] at quiet
      have backslash : Text.backslash ∈ alert := by decide
      have newline : Text.newline ∈ alert := by decide
      have later := ih quiet.2 (n + 1)
      simp only [List.cons_append, plainLength?, beq_eq_false_of_dull quiet.1 backslash,
        beq_eq_false_of_dull quiet.1 newline, beq_eq_false_of_dull quiet.1 known,
        Bool.false_eq_true, if_false]
      rw [later, List.length_cons]
      congr 1
      omega
  -- The second byte is none of a text block, since there are contents and they are quiet.
  have plain : blockMark.isPrefixOf (mark :: (contents ++ mark :: back)) = false := by
    obtain ⟨c, contents, rfl⟩ := List.exists_cons_of_ne_nil some_contents
    have double : Text.doubleQuote ∈ alert := by decide
    have other : (Text.doubleQuote == c) = false :=
      beq_eq_false_iff_ne.2 fun same => quiet c List.mem_cons_self (same ▸ double)
    simp [blockMark, List.isPrefixOf, other]
  rw [literalLength?.eq_def, plain, if_neg Bool.false_ne_true]
  simp only [counted contents quiet 1]
  congr 1
  omega

/-- So is one with quiet contents, which is on one line. -/
theorem blank_around {mark : UInt8} {contents : Text} (some_contents : contents ≠ [])
    (is_mark : isMark mark = true) (quiet : ∀ c ∈ contents, c ∉ alert) {region : Region}
    (over_ : region.isOver = true) (line : Nat) (out : Text) :
    blank region line (mark :: (contents ++ mark :: t)) out =
      blank (.literal 0) line t (mark :: (contents.reverse ++ mark :: out)) := by
  have at_ : regionAt mark (contents ++ mark :: t) = .ok (.literal (contents.length + 2)) := by
    rw [regionAt, if_pos is_mark, literalLength_quiet some_contents is_mark quiet]
  have next : region.next mark (contents ++ mark :: t) = .ok (.literal (contents.length + 1)) := by
    have outside : ¬ (Region.code == .line && mark != Text.newline) = true := Bool.false_ne_true
    rw [next_of_over over_]
    simp only [Region.next, if_neg outside, at_]
    rfl
  have same : lineBehind line mark = line := by
    rw [isMark, Bool.or_eq_true, beq_iff_eq, beq_iff_eq] at is_mark
    rcases is_mark with rfl | rfl <;> rfl
  have single : contents.newlines = 0 :=
    List.count_eq_zero.2 fun member => quiet _ member (by decide)
  rw [blank_step, next]
  simp only [same]
  rw [blank_literal, single, Nat.add_zero, blank_step]
  show blank (.literal 0) (lineBehind line mark) t _ = _
  rw [same]
  rfl

variable {loud : Loud} (w : Rewording loud) {front back code : Text}

/-- **Comments are blanked around a literal** that stands in code: the literal stays as it is, and
so does what its surroundings become when it is reworded. -/
theorem blankComments_reworded (known : ∀ c ∈ alert, c ∈ loud.bytes) (some_contents : w.old ≠ [])
    (in_code : inCode front (w.mark :: (w.old ++ w.mark :: back)) = true)
    (blanked : blankComments (w.original front back) = .ok code) : ∃ front' back',
      code = w.original front' back' ∧
        blankComments (w.reworded front back) = .ok (w.reworded front' back') := by
  have marks : ∀ mark ∈ Text.marks, isMark mark = true := Text.forall_mark (by decide) (by decide)
  have is_mark := marks _ w.is_mark
  have dull {contents : Text} (quiet : loud.Quiet contents) : ∀ c ∈ contents, c ∉ alert :=
    fun c member among => quiet c member (known c among)
  have some_new : w.new ≠ [] := by
    intro none
    have same := w.length_new
    rw [none] at same
    exact some_contents (List.length_eq_zero_iff.1 same.symm)
  have alike : Text.Alike alert (w.mark :: (w.old ++ w.mark :: back))
      (w.mark :: (w.new ++ w.mark :: back)) := (w.alike [] back).mono known
  unfold inCode at in_code
  cases behind : regionBehind (w.mark :: (w.old ++ w.mark :: back)) .code front with
  | error fault => rw [behind] at in_code; cases in_code
  | ok region =>
    rw [behind] at in_code
    obtain ⟨line, shown, same⟩ := blank_front alike rfl behind in_code 1
    obtain ⟨first, second⟩ := same []
    rw [blank_around some_contents is_mark (dull w.quiet_old) in_code] at first
    rw [blank_around some_new is_mark (dull w.quiet_new) in_code] at second
    obtain ⟨back', rfl, all⟩ := blank_out (first.symm.trans blanked)
    refine ⟨shown.reverse, back', ?_, (second.trans (all _)).trans ?_⟩
    · simp [Text.enquote]
    · simp [Text.enquote]

end Braced

end FlowTrace
