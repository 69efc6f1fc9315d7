import FlowTrace.Proofs.Braced.Comments
import FlowTrace.Proofs.Java.Positions

/-! # Scanners of Java sources

A Java source is scanned for comments, for brackets and for tokens, and each scanner passes over
literals in its own way. They take the literals to be at the same places. So once comments are blanked,
every literal that the reader of tokens comes to is closed (`comments_blanked`); and a bracket has the
same partner for the check of brackets, which knows their kinds, and for the two searches, which only
count them (`partners_agree`). -/

namespace FlowTrace.Java

variable {c : UInt8} {t source code : Text}

/-! ## Literals -/

/-- A token is missing at a literal that is not closed, or at a byte that begins no token. -/
theorem tokenAt_eq_error {fault : Fault} (missing : tokenAt c t = .error fault) :
    Braced.isMark c = true ∧ Braced.literalLength? (c :: t) = none ∨ fault = .illegalByte c := by
  unfold tokenAt at missing
  split at missing
  · cases missing
  · split at missing
    · cases missing
    · split at missing
      · rename_i mark
        split at missing
        · cases missing
        · rename_i open_
          exact .inl ⟨mark, open_⟩
      · split at missing
        · cases missing
        · split at missing
          · cases missing
          · cases missing
            exact .inr rfl

/-- Behind a token there are no comments, if there are none from where it begins. -/
theorem uncommented_tokenAt {kind : TokenKind} {n : Nat} (is_token : tokenAt c t = .ok (kind, n))
    (uncommented : Braced.Uncommented (c :: t)) : Braced.Uncommented (t.drop (n - 1)) := by
  by_cases mark : Braced.isMark c = true
  · obtain ⟨m, closed, behind⟩ := uncommented.exists_literal mark
    have tail := (tokenAt_mark mark is_token).2
    rw [Braced.literalTail, closed] at tail
    exact tail ▸ behind
  · have plain := Bool.eq_false_iff.2 mark
    refine (uncommented.of_cons plain).drop fun d member => ?_
    exact Braced.isMark_eq_false (not_alert_tokenAt plain is_token d member)

/-- Where there are no comments, tokens are read up to a byte that begins none. -/
theorem fault_tokensFrom {skip offset line : Nat} {done : List Token} {e : SyntaxError}
    (failed : tokensFrom t skip offset line done = .error e)
    (uncommented : Braced.Uncommented (t.drop skip)) : ∃ c, e.fault = .illegalByte c := by
  induction t generalizing skip offset line done with
  | nil => cases failed
  | cons c t ih =>
    cases skip with
    | succ skip => exact ih failed uncommented
    | zero =>
      rw [tokensFrom] at failed
      simp only at failed
      split at failed
      · rename_i blank
        exact ih failed (uncommented.of_cons (plain_of_blank (mem_blankSpace_iff.2 blank)).1)
      · split at failed
        · rename_i missing
          cases failed
          rcases tokenAt_eq_error missing with ⟨mark, open_⟩ | illegal
          · obtain ⟨n, closed, -⟩ := uncommented.exists_literal mark
            cases open_.symm.trans closed
          · exact ⟨c, illegal⟩
        · rename_i is_token
          exact ih failed (uncommented_tokenAt is_token uncommented)

/-- **Blanking comments** changes nothing else. There is one way to divide the source into pieces, and
each of them stays at its place: literals and bytes of program text as they are, and comments as blank
space, in which newlines stay. So the result is as long as the source, with newlines at the same offsets
and with the same line at every offset. It has no more comments to blank, and tokens can be read from it
up to a byte that begins none, which is no literal that is not closed. -/
theorem comments_blanked (blanked : Braced.blankComments source = .ok code) :
    (∃ pieces, Braced.Divides source pieces ∧
      ∀ other, Braced.Divides source other → other = pieces) ∧
    (∀ (p : Braced.Piece) (start : Nat), p.StandsAt source start →
      source.slice start (start + p.text.length) = p.text ∧
      code.slice start (start + p.text.length) =
        if p.isComment then p.text.map Braced.blankByte else p.text) ∧
    code.length = source.length ∧
    (∀ i : Nat, code[i]? = some Text.newline ↔ source[i]? = some Text.newline) ∧
    (∀ offset, code.lineAt offset = source.lineAt offset) ∧
    Braced.blankComments code = .ok code ∧
    ∀ e, tokenize code = .error e → e.fault ≠ .unterminatedString := by
  have same_newlines := Braced.newlines_blankComments blanked
  have uncommented := Braced.uncommented_blankComments blanked
  refine ⟨?_, fun p start stands => stands.slice blanked, ?_, fun i => ?_,
    fun offset => Text.lineAt_congr same_newlines offset, uncommented.blankComments_eq,
    fun e failed => ?_⟩
  · obtain ⟨pieces, divides, -⟩ := Braced.blankComments_eq_ok.1 blanked
    exact ⟨pieces, divides, fun other divides' => divides'.unique divides⟩
  · simpa using congrArg List.length same_newlines
  · rw [Text.getElem?_newline_iff, Text.getElem?_newline_iff, same_newlines]
  · obtain ⟨c, illegal⟩ := fault_tokensFrom failed uncommented
    rw [illegal]
    exact nofun

/-- The source of literals that look like comments, and comments that look like literals. -/
def quotedSource : Text := "a = \"/*\"; // \"\nb = \"\"\"\n// \"\"\"; /* '\n*/ c"

/-- Only comments are blanked. -/
theorem quoted_comments_blanked : ∃ code, Braced.blankComments quotedSource = .ok code ∧
    code = ("a = \"/*\";     \nb = \"\"\"\n// \"\"\";     \n   c" : Text) ∧
    Braced.blankComments code = .ok code ∧ ∀ e, tokenize code = .error e → e.fault ≠ .unterminatedString := by
  have blanked : Braced.blankComments quotedSource =
      .ok "a = \"/*\";     \nb = \"\"\"\n// \"\"\";     \n   c" := by
    decide +kernel
  obtain ⟨-, -, -, -, -, again, closed⟩ := comments_blanked blanked
  exact ⟨_, blanked, rfl, again, closed⟩

/-! ## Partners -/

variable {tokens open_ : List Token} {pairs : List (Nat × Nat)} {opening close : Nat}

/-- A pair among tokens begins at one of them, or at a bracket that is open in front of them. -/
theorem exists_token_of_pair (all : tokenPairs? tokens open_ = some pairs)
    (member : (opening, close) ∈ pairs) (opened : ∀ bracket ∈ open_, bracket.isOpening = true) :
    ∃ t ∈ open_ ++ tokens, t.isOpening = true ∧ t.offset = opening := by
  induction tokens generalizing open_ pairs with
  | nil =>
    cases open_ with
    | nil => cases all; cases member
    | cons _ _ => cases all
  | cons t rest ih =>
    rw [tokenPairs_cons] at all
    split_ifs at all with opens shuts
    · obtain ⟨u, member, found⟩ := ih all member (List.forall_mem_cons.2 ⟨opens, opened⟩)
      refine ⟨u, ?_, found⟩
      simp only [List.mem_append, List.mem_cons] at member ⊢
      tauto
    · cases open_ with
      | nil => cases all
      | cons bracket outer =>
        obtain ⟨opens', opened⟩ := List.forall_mem_cons.1 opened
        simp only at all
        split_ifs at all
        obtain ⟨later, inner, rfl⟩ := Option.map_eq_some_iff.1 all
        rcases List.mem_cons.1 member with same | member
        · obtain ⟨rfl, -⟩ := Prod.mk.inj same
          exact ⟨bracket, List.mem_cons_self, opens', rfl⟩
        · obtain ⟨u, member, found⟩ := ih inner member opened
          refine ⟨u, ?_, found⟩
          simp only [List.mem_append, List.mem_cons] at member ⊢
          tauto
    · obtain ⟨u, member, found⟩ := ih all member opened
      refine ⟨u, ?_, found⟩
      simp only [List.mem_append, List.mem_cons] at member ⊢
      tauto

/-- Tokens stand at different offsets. -/
theorem Laid.offset_inj {i j : Nat} {t u : Token} (laid : Laid code 0 tokens)
    (at_i : tokens[i]? = some t) (at_j : tokens[j]? = some u) (same : t.offset = u.offset) : i = j := by
  obtain ⟨bound_i, rfl⟩ := List.getElem?_eq_some_iff.1 at_i
  obtain ⟨bound_j, rfl⟩ := List.getElem?_eq_some_iff.1 at_j
  have apart (k l : Nat) (bound : k < tokens.length) (bound' : l < tokens.length) (before : k < l) :
      tokens[k].offset < tokens[l].offset :=
    Nat.lt_of_lt_of_le (laid.stands _ (List.getElem_mem bound)).1.filled
      (List.pairwise_iff_getElem.1 laid.pairwise k l bound bound' before)
  rcases Nat.lt_trichotomy i j with before | rfl | behind
  · exact absurd same (Nat.ne_of_lt (apart i j bound_i bound_j before))
  · rfl
  · exact absurd same.symm (Nat.ne_of_lt (apart j i bound_j bound_i behind))

/-- The token of an opening bracket has the token of its partner as its own. -/
theorem exists_match? (read : tokenize code = .ok tokens) (all : Braced.pairs? code = some pairs)
    (pair : Braced.IsPair code opening close) :
    ∃ i j t u, tokens[i]? = some t ∧ t.offset = opening ∧ t.isOpening = true ∧
      tokens[j]? = some u ∧ u.offset = close ∧ match? tokens i = some (some j) := by
  have all' := (tokenPairs_tokenize read).trans all
  obtain ⟨t, member, opens, rfl⟩ :=
    exists_token_of_pair all' ((Braced.mem_pairs_iff all).2 pair) fun _ => nofun
  obtain ⟨before, rest, rfl⟩ := List.append_of_mem member
  -- The brackets of all tokens are balanced, so there is a token that closes this one.
  have even := balanced_iff.1 (balanced_of_tokenPairs all')
  obtain ⟨depth, closed⟩ := exists_depthBehind even
  obtain ⟨inside, u, after, rfl, found, balanced, -⟩ := exists_partner closed opens
  obtain ⟨_, same, closes, -⟩ := enclosed?_eq_some found
  obtain ⟨rfl, -⟩ := List.cons.inj (List.append_cancel_left same)
  -- It stands at the offset of the partner, since both make a pair with the bracket.
  have pair' := (Braced.mem_pairs_iff all).1 (pair_of_balanced all' opens closes balanced).2
  have partner : u.offset = close := Option.some.inj (pair'.found.symm.trans pair.found)
  have at_ : At (before ++ t :: (inside ++ u :: after)) before.length
      (t :: (inside ++ u :: after) ++ []) := ⟨by simp, by simp⟩
  have at_u : At (before ++ t :: (inside ++ u :: after)) (before.length + 1 + inside.length)
      (u :: after) := by
    refine At.append ⟨?_, ?_⟩
    · rw [← List.drop_drop, List.drop_left]
      rfl
    · simp
      omega
  exact ⟨before.length, _, t, u, by simp, rfl, opens, at_u.get, partner,
    match?_of_enclosed at_ opens found⟩

/-- **The scanners agree on partners.** In a source that passes the check of brackets, every opening
bracket outside literals and comments is in one pair of the check; the scan for its partner ends at the
other bracket of the pair, which is of the same kind; and if the source has tokens, then the search among
them leads from the token at the bracket, of which there is one, to the token at its partner. -/
theorem partners_agree (blanked : Braced.blankComments source = .ok code)
    (checked : Braced.checkBrackets code = .ok ()) :
    ∃ pairs, Braced.pairs? code = some pairs ∧ ∀ (opening : Nat) (bracket : UInt8),
      (Braced.Piece.code bracket).StandsAt source opening → Braced.isOpening bracket = true →
      ∃ close, (∀ other, (opening, other) ∈ pairs ↔ other = close) ∧
        Braced.closing? code opening = some close ∧
        (∃ c, code[close]? = some c ∧ Braced.isClosing c = true ∧ Braced.partner c = bracket) ∧
        ∀ tokens, tokenize code = .ok tokens →
          ∃ i j t u, tokens[i]? = some t ∧ t.offset = opening ∧ t.isOpening = true ∧
            (∀ k v, tokens[k]? = some v → v.offset = opening → k = i) ∧
            tokens[j]? = some u ∧ u.offset = close ∧ match? tokens i = some (some j) := by
  obtain ⟨pairs, all⟩ := Option.isSome_iff_exists.1 (Braced.checkBrackets_eq_ok.1 checked)
  refine ⟨pairs, all, fun opening bracket stands opens => ?_⟩
  obtain ⟨close, member, pair⟩ :=
    ((Braced.opens_iff blanked).2 ⟨bracket, stands, opens⟩).exists_pair all
  refine ⟨close, fun other => ⟨fun member' => ?_, fun same => same ▸ member⟩, pair.found, ?_,
    fun tokens read => ?_⟩
  · have pair' := (Braced.mem_pairs_iff all).1 member'
    exact Option.some.inj (pair'.found.symm.trans pair.found)
  · obtain ⟨c, byte, closing, same⟩ := pair.kind
    refine ⟨c, byte, closing, ?_⟩
    -- the bracket of the source is left as it is
    obtain ⟨before, after, divides, rfl⟩ := stands
    obtain ⟨pieces, divides', rfl⟩ := Braced.blankComments_eq_ok.1 blanked
    obtain rfl := divides'.unique divides
    rw [List.flatMap_append, List.flatMap_cons, ← Braced.length_flatMap_blanked,
      List.getElem?_append_right (Nat.le_refl _), Nat.sub_self] at same
    exact (Option.some.inj same).symm
  · obtain ⟨i, j, t, u, at_i, here, opens', at_j, there, found⟩ := exists_match? read all pair
    exact ⟨i, j, t, u, at_i, here, opens', fun k v at_k place =>
      (laid_tokenize read).offset_inj at_k at_i (place.trans here.symm), at_j, there, found⟩

/-- The source of a pair with brackets inside, in a literal and in a comment. -/
def pairSource : Text := "(')'/*)*/)"

/-- Its code. -/
def pairCode : Text := "(')'     )"

/-- Brackets in literals and in comments are no partners. -/
theorem pair_partners_agree : Braced.closing? pairCode 0 = some 9 ∧
    ∃ pairs, Braced.pairs? pairCode = some pairs ∧ (0, 9) ∈ pairs ∧
      ∃ (tokens : List Token) (i j : Nat) (t u : Token), tokenize pairCode = .ok tokens ∧
        tokens[i]? = some t ∧ t.offset = 0 ∧ tokens[j]? = some u ∧ u.offset = 9 ∧
        match? tokens i = some (some j) := by
  have blanked : Braced.blankComments pairSource = .ok pairCode := by decide +kernel
  have tokenized : tokenize pairCode =
      .ok [⟨.punct, "(", 0, 1, 1⟩, ⟨.string, "')'", 1, 4, 1⟩, ⟨.punct, ")", 9, 10, 1⟩] := by
    decide +kernel
  have closes : Braced.closing? pairCode 0 = some 9 := by decide +kernel
  have opens : Braced.Opens pairCode 0 := ⟨rfl, _, rfl, rfl⟩
  obtain ⟨bracket, stands, opening⟩ := (Braced.opens_iff blanked).1 opens
  obtain ⟨pairs, all, agree⟩ := partners_agree blanked (by decide +kernel)
  obtain ⟨close, member, found, -, matched⟩ := agree 0 bracket stands opening
  obtain rfl := Option.some.inj (closes.symm.trans found)
  obtain ⟨i, j, t, u, at_i, here, -, -, at_j, there, partner⟩ := matched _ tokenized
  exact ⟨closes, pairs, all, (member 9).2 rfl, _, i, j, t, u, tokenized, at_i, here, at_j, there,
    partner⟩

end FlowTrace.Java
