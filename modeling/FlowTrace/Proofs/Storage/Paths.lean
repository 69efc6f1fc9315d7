import FlowTrace.Proofs.Text.Rewording
import FlowTrace.Storage.Path

/-! # Normal forms of paths

A path in normal form leads up some times, never from the root, and then down by names
(`Path.Normal`). Pushing components keeps the form (`Path.Normal.extend`), and a path is read back
from its text (`Path.ofText_toText`). So the text of a path and the path are the same thing, and
joining texts is appending components (`Path.join_pair`).

A path lies **within** another when it is that path and then leads down only (`Path.Within`). A text
that does not lead up by itself leads to somewhere within any path (`Path.within_append`). -/

namespace FlowTrace

/-! ## Splitting at a byte -/

namespace Text

variable {sep : UInt8}

/-- A separator divides a text, whatever part of a piece was read before. -/
theorem splitAtByte_go_append (front back part : Text) :
    splitAtByte.go sep (front ++ sep :: back) part =
      splitAtByte.go sep front part ++ back.splitAtByte sep := by
  induction front generalizing part with
  | nil => simp [splitAtByte.go, splitAtByte]
  | cons c front ih =>
    by_cases same : c = sep
    · simp [splitAtByte.go, same, ih]
    · simp [splitAtByte.go, same, ih]

/-- A separator divides the pieces of a text into those on its two sides. -/
theorem splitAtByte_append (front back : Text) :
    (front ++ sep :: back).splitAtByte sep = front.splitAtByte sep ++ back.splitAtByte sep :=
  splitAtByte_go_append front back []

/-- A text without separators goes on with the piece that was begun. -/
theorem splitAtByte_go_of_notMem {t : Text} (absent : sep ∉ t) (part : Text) :
    splitAtByte.go sep t part = [part.reverse ++ t] := by
  induction t generalizing part with
  | nil => simp [splitAtByte.go]
  | cons c t ih =>
    rw [List.mem_cons, not_or] at absent
    have other : ¬ (c == sep) = true := by simpa using Ne.symm absent.1
    rw [splitAtByte.go, if_neg other, ih absent.2]
    simp

/-- A text without separators is one piece. -/
theorem splitAtByte_of_notMem {t : Text} (absent : sep ∉ t) : t.splitAtByte sep = [t] :=
  splitAtByte_go_of_notMem absent []

/-- A piece has no separator in it, and its bytes are those of the text or of what was read
before. -/
theorem mem_splitAtByte_go {t part piece : Text} (member : piece ∈ splitAtByte.go sep t part)
    (absent : sep ∉ part) : sep ∉ piece ∧ ∀ c ∈ piece, c ∈ part ∨ c ∈ t := by
  induction t generalizing part with
  | nil =>
    obtain rfl := List.mem_singleton.1 member
    exact ⟨by simpa using absent, fun c inside => Or.inl (List.mem_reverse.1 inside)⟩
  | cons d t ih =>
    rw [splitAtByte.go] at member
    split at member
    · rcases List.mem_cons.1 member with rfl | later
      · exact ⟨by simpa using absent, fun c inside => Or.inl (List.mem_reverse.1 inside)⟩
      · obtain ⟨clean, from_t⟩ := ih later List.not_mem_nil
        refine ⟨clean, fun c inside => Or.inr (List.mem_cons_of_mem d ?_)⟩
        exact (from_t c inside).resolve_left List.not_mem_nil
    · rename_i other
      have other : d ≠ sep := by simpa using other
      have absent : sep ∉ d :: part := by simp [Ne.symm other, absent]
      obtain ⟨clean, origin⟩ := ih member absent
      refine ⟨clean, fun c inside => ?_⟩
      rcases origin c inside with old | new
      · rcases List.mem_cons.1 old with rfl | old
        · exact Or.inr List.mem_cons_self
        · exact Or.inl old
      · exact Or.inr (List.mem_cons_of_mem d new)

end Text

namespace Path

variable {rooted : Bool} {parts new : List Text} {part name t : Text} {p base : Path}

/-! ## Components -/

/-- A component as it can be **written**: it is not empty and has no separator. -/
structure IsWritten (part : Text) : Prop where
  /-- It is not empty. -/
  ne_nil : part ≠ []
  /-- It has no separator. -/
  separator_notMem : separator ∉ part

/-- A **name**: a component that leads down. -/
structure IsName (name : Text) : Prop extends IsWritten name where
  /-- It leads somewhere. -/
  ne_here : name ≠ here
  /-- It does not lead up. -/
  ne_up : name ≠ up

instance (name : Text) : Decidable (IsName name) :=
  decidable_of_iff ((name ≠ [] ∧ separator ∉ name) ∧ name ≠ here ∧ name ≠ up)
    ⟨fun ⟨⟨filled, clean⟩, leads, down⟩ => ⟨⟨filled, clean⟩, leads, down⟩,
      fun is_name => ⟨⟨is_name.ne_nil, is_name.separator_notMem⟩, is_name.ne_here, is_name.ne_up⟩⟩

/-- The step up is written as a part. -/
theorem isWritten_up : IsWritten up := ⟨by decide, by decide⟩

/-- An empty text has no components. -/
@[simp] theorem components_nil : components [] = [] := by decide

/-- Components are written as parts. -/
theorem isWritten_of_mem_components (member : part ∈ components t) : IsWritten part := by
  obtain ⟨member, filled⟩ := List.mem_filter.1 member
  exact ⟨by simpa using filled, (Text.mem_splitAtByte_go member List.not_mem_nil).1⟩

/-- A component is made of bytes of the text. -/
theorem mem_of_mem_components {c : UInt8} (member : part ∈ components t) (inside : c ∈ part) :
    c ∈ t := by
  obtain ⟨member, -⟩ := List.mem_filter.1 member
  exact ((Text.mem_splitAtByte_go member List.not_mem_nil).2 c inside).resolve_left
    List.not_mem_nil

/-- A separator divides the components of a text into those on its two sides. -/
theorem components_append (front back : Text) :
    components (front ++ separator :: back) = components front ++ components back := by
  rw [components, Text.splitAtByte_append, List.filter_append, components, components]

/-- A part as it is written is its only component. -/
theorem components_of_isWritten (written : IsWritten part) : components part = [part] := by
  rw [components, Text.splitAtByte_of_notMem written.separator_notMem]
  simp [written.ne_nil]

/-- Parts are joined by a slash behind the first one. -/
theorem joinWith_slash (first : Text) {rest : List Text} (more : rest ≠ []) :
    Text.joinWith "/" (first :: rest) = first ++ separator :: Text.joinWith "/" rest :=
  Text.joinWith_cons first more

/-- What is joined is what is read. -/
theorem components_joinWith (written : ∀ part ∈ parts, IsWritten part) :
    components (Text.joinWith "/" parts) = parts := by
  induction parts with
  | nil => rfl
  | cons first rest ih =>
    obtain ⟨first_written, rest_written⟩ := List.forall_mem_cons.1 written
    by_cases last : rest = []
    · rw [last, Text.joinWith_singleton, components_of_isWritten first_written]
    · rw [joinWith_slash first last, components_append, components_of_isWritten first_written,
        ih rest_written, List.singleton_append]

/-! ## Pushing components -/

/-- Nothing new leaves the parts as they are. -/
theorem extend_nil (rooted : Bool) (parts : List Text) : extend rooted parts [] = parts := by
  simp [extend]

/-- Parts are extended step by step. -/
theorem extend_append (rooted : Bool) (parts front back : List Text) :
    extend rooted parts (front ++ back) = extend rooted (extend rooted parts front) back := by
  simp [extend]

/-- The first step is taken first. -/
theorem extend_cons (rooted : Bool) (parts : List Text) (part : Text) (new : List Text) :
    extend rooted parts (part :: new) = extend rooted (extend rooted parts [part]) new :=
  extend_append rooted parts [part] new

/-- A step to where one is leaves the parts as they are. -/
theorem extend_here (rooted : Bool) (parts : List Text) : extend rooted parts [here] = parts := by
  simp [extend]

/-- A name is put at the end. -/
theorem extend_name (leads : part ≠ here) (down : part ≠ up) :
    extend rooted parts [part] = parts ++ [part] := by
  simp [extend, push, leads, down]

/-- A step up takes the last name away. -/
theorem extend_up_name (down : name ≠ up) : extend rooted (parts ++ [name]) [up] = parts := by
  have up_ne_here : ¬ up = here := by decide
  simp only [extend, List.foldl_cons, List.foldl_nil, List.reverse_append, List.reverse_singleton,
    List.singleton_append, push, if_neg up_ne_here, if_neg down, if_true, List.reverse_reverse]

/-- A step up behind another one is kept. -/
theorem extend_up_up : extend rooted (parts ++ [up]) [up] = parts ++ [up, up] := by
  have up_ne_here : ¬ up = here := by decide
  simp [extend, push, up_ne_here]

/-- A step up from nothing is kept, unless the path begins at the root. -/
theorem extend_up_nil (rooted : Bool) : extend rooted [] [up] = if rooted then [] else [up] := by
  cases rooted <;> decide

/-- **One component**: it stays away, it takes the last name away, or it is added. -/
theorem extend_cases (rooted : Bool) (parts : List Text) (part : Text) :
    extend rooted parts [part] = parts ∧ (part = here ∨ part = up ∧ parts = [] ∧ rooted = true) ∨
    part = up ∧ (∃ last, last ≠ up ∧ parts = extend rooted parts [up] ++ [last]) ∨
    extend rooted parts [part] = parts ++ [part] ∧ (part ≠ here ∧ part ≠ up ∨
      part = up ∧ (∀ last ∈ parts.getLast?, last = up) ∧ (parts = [] → rooted = false)) := by
  by_cases leads : part = here
  · exact Or.inl ⟨leads ▸ extend_here rooted parts, Or.inl leads⟩
  by_cases climbs : part = up
  · subst climbs
    rcases List.eq_nil_or_concat' parts with rfl | ⟨front, last, rfl⟩
    · cases rooted with
      | true => exact Or.inl ⟨extend_up_nil true, Or.inr ⟨rfl, rfl, rfl⟩⟩
      | false => exact Or.inr (Or.inr ⟨extend_up_nil false, Or.inr ⟨rfl, by simp, fun _ => rfl⟩⟩)
    · by_cases down : last = up
      · subst down
        refine Or.inr (Or.inr ⟨?_, Or.inr ⟨rfl, by simp, fun empty => ?_⟩⟩)
        · rw [extend_up_up]
          simp
        · simp at empty
      · exact Or.inr (Or.inl ⟨rfl, last, down, by rw [extend_up_name down]⟩)
  · exact Or.inr (Or.inr ⟨extend_name leads climbs, Or.inl ⟨leads, climbs⟩⟩)

/-- Names are put at the end, one after the other. -/
theorem extend_names (names : ∀ name ∈ new, IsName name) :
    extend rooted parts new = parts ++ new := by
  induction new generalizing parts with
  | nil => simp [extend_nil]
  | cons name new ih =>
    obtain ⟨first, rest⟩ := List.forall_mem_cons.1 names
    rw [extend_cons, extend_name first.ne_here first.ne_up, ih rest, List.append_assoc,
      List.singleton_append]

/-! ## The normal form -/

/-- Components in **normal form**: they lead up some times, never from the root, and then down. -/
def IsNormal (rooted : Bool) (parts : List Text) : Prop :=
  ∃ climb names, parts = List.replicate climb up ++ names ∧ (∀ name ∈ names, IsName name) ∧
    (rooted = true → climb = 0)

/-- Paths in normal form. -/
def Normal (p : Path) : Prop := IsNormal p.rooted p.parts

/-- No parts are in normal form. -/
theorem isNormal_nil (rooted : Bool) : IsNormal rooted [] := ⟨0, [], rfl, nofun, fun _ => rfl⟩

/-- Parts in normal form are written as parts. -/
theorem IsNormal.isWritten (normal : IsNormal rooted parts) : ∀ part ∈ parts, IsWritten part := by
  obtain ⟨climb, names, rfl, are_names, -⟩ := normal
  intro part member
  rcases List.mem_append.1 member with climbs | down
  · rw [List.eq_of_mem_replicate climbs]
    exact isWritten_up
  · exact (are_names part down).toIsWritten

/-- What does not lead up is a name. -/
theorem IsNormal.isName (normal : IsNormal rooted parts) (member : part ∈ parts)
    (down : part ≠ up) : IsName part := by
  obtain ⟨climb, names, rfl, are_names, -⟩ := normal
  rcases List.mem_append.1 member with climbs | inside
  · exact absurd (List.eq_of_mem_replicate climbs) down
  · exact are_names part inside

/-- Parts in normal form stay so when a name is put behind them. -/
theorem IsNormal.concat_name (normal : IsNormal rooted parts) (is_name : IsName name) :
    IsNormal rooted (parts ++ [name]) := by
  obtain ⟨climb, names, rfl, are_names, bound⟩ := normal
  refine ⟨climb, names ++ [name], by simp, ?_, bound⟩
  intro other member
  rcases List.mem_append.1 member with old | new
  · exact are_names other old
  · rwa [List.mem_singleton.1 new]

/-- A path whose last component leads up has no names. -/
theorem IsNormal.concat_up (normal : IsNormal rooted parts)
    (climbs : ∀ last ∈ parts.getLast?, last = up) (free : parts = [] → rooted = false) :
    IsNormal rooted (parts ++ [up]) := by
  obtain ⟨climb, names, rfl, are_names, bound⟩ := normal
  have nameless : names = [] := by
    rcases List.eq_nil_or_concat' names with empty | ⟨front, last, rfl⟩
    · exact empty
    · exact absurd (climbs last (by simp)) (are_names last (by simp)).ne_up
  subst nameless
  refine ⟨climb + 1, [], by simp [List.replicate_succ'], nofun, fun is_rooted => ?_⟩
  have none : climb = 0 := bound is_rooted
  rw [free (by simp [none])] at is_rooted
  cases is_rooted

/-- The first of some parts in normal form are in normal form. -/
theorem IsNormal.of_prefix {front : List Text} (normal : IsNormal rooted parts)
    (early : front <+: parts) : IsNormal rooted front := by
  obtain ⟨climb, names, rfl, are_names, bound⟩ := normal
  rw [List.prefix_iff_eq_take.1 early, List.take_append, List.take_replicate]
  refine ⟨_, _, rfl, fun name member => are_names name (List.mem_of_mem_take member), ?_⟩
  intro is_rooted
  rw [bound is_rooted, Nat.min_zero]

/-- Parts in normal form stay so without the last one. -/
theorem IsNormal.dropLast (normal : IsNormal rooted parts) : IsNormal rooted parts.dropLast :=
  normal.of_prefix (List.dropLast_prefix parts)

/-- **Pushing written components keeps the normal form.** -/
theorem IsNormal.extend (normal : IsNormal rooted parts)
    (written : ∀ part ∈ new, IsWritten part) : IsNormal rooted (Path.extend rooted parts new) := by
  induction new generalizing parts with
  | nil => rwa [extend_nil]
  | cons part new ih =>
    obtain ⟨first, rest⟩ := List.forall_mem_cons.1 written
    rw [extend_cons]
    refine ih ?_ rest
    rcases extend_cases rooted parts part with
      ⟨same, -⟩ | ⟨rfl, last, -, taken⟩ | ⟨added, leads | climbs⟩
    · rwa [same]
    · rw [taken] at normal
      simpa using normal.dropLast
    · rw [added]
      exact normal.concat_name ⟨first, leads.1, leads.2⟩
    · obtain ⟨rfl, climbs, free⟩ := climbs
      rw [added]
      exact normal.concat_up climbs free

/-- A path that was read is in normal form. -/
theorem normal_ofText (t : Text) : (ofText t).Normal :=
  (isNormal_nil _).extend fun _ => isWritten_of_mem_components

/-- A path in normal form stays so when a text is appended. -/
theorem Normal.append (normal : p.Normal) (t : Text) : (p.append t).Normal :=
  IsNormal.extend normal fun _ => isWritten_of_mem_components

/-- A normal form is the normal form of its own components. -/
theorem IsNormal.extend_self (normal : IsNormal rooted parts) :
    Path.extend rooted [] parts = parts := by
  obtain ⟨climb, names, rfl, are_names, bound⟩ := normal
  rw [extend_append, extend_names are_names]
  congr 1
  -- From the root there is nothing to climb; elsewhere each step up is added to those before it.
  induction climb with
  | zero => rfl
  | succ climb ih =>
    cases rooted with
    | true => cases bound rfl
    | false =>
      rw [List.replicate_succ', extend_append, ih nofun]
      cases climb with
      | zero => rfl
      | succ climb =>
        rw [List.replicate_succ', extend_up_up]
        simp

/-! ## The text of a path -/

/-- Joined parts do not begin with a separator. -/
theorem head_joinWith (written : ∀ part ∈ parts, IsWritten part) :
    (Text.joinWith "/" parts).head? ≠ some separator := by
  cases parts with
  | nil => exact nofun
  | cons first rest =>
    obtain ⟨some_byte, clean⟩ := written first List.mem_cons_self
    obtain ⟨c, first, rfl⟩ := List.exists_cons_of_ne_nil some_byte
    have head : (Text.joinWith "/" ((c :: first) :: rest)).head? = some c := by
      by_cases last : rest = []
      · rw [last, Text.joinWith_singleton]
        rfl
      · rw [joinWith_slash _ last]
        rfl
    rw [head]
    rintro ⟨⟩
    exact clean List.mem_cons_self

/-- A path as text shows whether it begins at the root. -/
theorem isRooted_toText (normal : p.Normal) : isRooted p.toText = p.rooted := by
  obtain ⟨rooted, parts⟩ := p
  cases rooted with
  | true => rfl
  | false =>
    by_cases empty : parts = []
    · subst empty
      decide
    · have head := head_joinWith normal.isWritten
      simpa [isRooted, toText, empty] using head

/-- The components of the text of a path are those of the path, unless the path leads nowhere. -/
theorem components_toText (normal : p.Normal) :
    components p.toText = p.parts ∨ p = ⟨false, []⟩ := by
  obtain ⟨rooted, parts⟩ := p
  have read := components_joinWith normal.isWritten
  cases rooted with
  | true =>
    have split : components (separator :: Text.joinWith "/" parts) = parts := by
      have split := components_append [] (Text.joinWith "/" parts)
      rwa [List.nil_append, components_nil, List.nil_append, read] at split
    exact Or.inl split
  | false =>
    by_cases empty : parts = []
    · exact Or.inr (by rw [empty])
    · exact Or.inl (by simpa [toText, empty] using read)

/-- The text of the path that leads nowhere is one component. -/
theorem components_nowhere : components (toText ⟨false, []⟩) = [here] := by decide

/-- The components of a path as text lead where its parts do. -/
theorem extend_components_toText (normal : p.Normal) (front : List Text) :
    extend p.rooted front (components p.toText) = extend p.rooted front p.parts := by
  rcases components_toText normal with read | rfl
  · rw [read]
  · rw [components_nowhere, extend_here, extend_nil]

/-- **A path is read back from its text.** -/
theorem ofText_toText (normal : p.Normal) : ofText p.toText = p := by
  rw [ofText, isRooted_toText normal, extend_components_toText normal, normal.extend_self]

/-- A path as text is not empty. -/
theorem toText_ne_nil (normal : p.Normal) : p.toText ≠ [] := by
  obtain ⟨rooted, parts⟩ := p
  cases rooted with
  | true => exact List.cons_ne_nil _ _
  | false =>
    cases parts with
    | nil => decide
    | cons first rest =>
      obtain ⟨some_byte, -⟩ := normal.isWritten first List.mem_cons_self
      show Text.joinWith "/" (first :: rest) ≠ []
      by_cases last : rest = []
      · rwa [last, Text.joinWith_singleton]
      · rw [joinWith_slash first last]
        simp

/-- What is joined to the text of a path leads on from the path. -/
theorem ofText_append (normal : p.Normal) (t : Text) :
    ofText (p.toText ++ separator :: t) = p.append t := by
  have filled := toText_ne_nil normal
  have same_root : isRooted (p.toText ++ separator :: t) = p.rooted := by
    rw [← isRooted_toText normal, isRooted, isRooted, List.head?_append_of_ne_nil _ filled]
  rw [ofText, same_root, components_append, extend_append, extend_components_toText normal,
    normal.extend_self]
  rfl

/-- Two texts that are not empty are joined by a separator, and the result is made clean. -/
theorem join_of_filled {a b : Text} (first : a ≠ []) (second : b ≠ []) :
    join [a, b] = clean (a ++ separator :: b) := by
  have texts : [a, b].filter (fun t => !t.isEmpty) = [a, b] := by simp [first, second]
  have joined : Text.joinWith "/" [a, b] = a ++ separator :: b := by
    rw [joinWith_slash a (List.cons_ne_nil b []), Text.joinWith_singleton]
  simp [join, texts, joined]

/-- **Joining is appending.** -/
theorem join_pair (normal : p.Normal) (filled : t ≠ []) :
    join [p.toText, t] = (p.append t).toText := by
  rw [join_of_filled (toText_ne_nil normal) filled, clean, ofText_append normal]

/-! ## Directories -/

/-- The path to the directory that a path is in. -/
def parent (p : Path) : Path := ⟨p.rooted, p.parts.dropLast⟩

/-- The parent of a path in normal form is in normal form. -/
theorem Normal.parent (normal : p.Normal) : p.parent.Normal := IsNormal.dropLast normal

/-- What stands in front of the last component. -/
theorem directory_append (front last : Text) (clean_last : separator ∉ last)
    (ended : ∀ c ∈ front.getLast?, c = separator) : directory (front ++ last) = clean front := by
  have cut : (front ++ last).reverse.dropWhile (fun c => c != separator) = front.reverse := by
    have all_dropped : ∀ c ∈ last.reverse, (c != separator) = true := by
      intro c member
      have other : c ≠ separator := fun same => clean_last (same ▸ List.mem_reverse.1 member)
      simpa using other
    rw [List.reverse_append, List.dropWhile_append_of_pos all_dropped]
    rcases List.eq_nil_or_concat' front with rfl | ⟨front, c, rfl⟩
    · rfl
    · have ends : c = separator := ended c (by simp)
      simp [ends]
  rw [directory, cut, List.reverse_reverse]

/-- The last part is joined to the others by a separator. -/
theorem joinWith_concat (parts : List Text) (more : parts ≠ []) (last : Text) :
    Text.joinWith "/" (parts ++ [last]) = Text.joinWith "/" parts ++ separator :: last := by
  induction parts with
  | nil => exact absurd rfl more
  | cons first rest ih =>
    by_cases single : rest = []
    · subst single
      rw [Text.joinWith_singleton, List.singleton_append,
        joinWith_slash first (List.cons_ne_nil last []), Text.joinWith_singleton]
    · rw [List.cons_append, joinWith_slash first (by simp), ih single, joinWith_slash first single,
        List.append_assoc, List.cons_append]

/-- A path with one more part is the path, a separator and that part. -/
theorem toText_concat (rooted : Bool) {front : List Text} (more : front ≠ []) (last : Text) :
    toText ⟨rooted, front ++ [last]⟩ = toText ⟨rooted, front⟩ ++ separator :: last := by
  cases rooted <;> simp [toText, joinWith_concat front more last, more]

/-- In front of its last component, the text of a path is that of the directory. -/
theorem exists_toText_concat {front : List Text} (above : (Path.mk rooted front).Normal)
    (last : Text) : ∃ start, toText ⟨rooted, front ++ [last]⟩ = start ++ last ∧
      (∀ c ∈ start.getLast?, c = separator) ∧ clean start = toText ⟨rooted, front⟩ := by
  by_cases single : front = []
  · subst single
    refine ⟨if rooted then [separator] else [], ?_, ?_, ?_⟩
    · cases rooted <;> simp [toText, Text.joinWith_singleton]
    · cases rooted <;> simp
    · cases rooted <;> decide
  · refine ⟨(Path.mk rooted front).toText ++ [separator], ?_, by simp, ?_⟩
    · rw [toText_concat rooted single, List.append_cons]
    · rw [clean, ofText_append above, append, components_nil, extend_nil]

/-- **The directory of a path.** -/
theorem directory_toText (normal : p.Normal) : directory p.toText = p.parent.toText := by
  obtain ⟨rooted, parts⟩ := p
  rcases List.eq_nil_or_concat' parts with rfl | ⟨front, last, rfl⟩
  · cases rooted <;> decide
  have clean_last : separator ∉ last := (normal.isWritten last (by simp)).separator_notMem
  have parent_eq : (Path.mk rooted (front ++ [last])).parent = ⟨rooted, front⟩ := by
    simp [parent]
  obtain ⟨start, text, ended, cleaned⟩ := exists_toText_concat (parent_eq ▸ normal.parent) last
  rw [text, directory_append start last clean_last ended, cleaned, parent_eq]

/-- Only the text of the root ends in a separator. -/
theorem eq_root_of_getLast (normal : p.Normal) (ended : p.toText.getLast? = some separator) :
    p = ⟨true, []⟩ := by
  obtain ⟨rooted, parts⟩ := p
  rcases List.eq_nil_or_concat' parts with rfl | ⟨front, last, rfl⟩
  · cases rooted with
    | true => rfl
    | false => exact absurd ended (by decide)
  · obtain ⟨some_byte, clean_last⟩ := normal.isWritten last (by simp)
    have above : (Path.mk rooted front).Normal := normal.of_prefix (List.prefix_append _ _)
    obtain ⟨start, text, -⟩ := exists_toText_concat above last
    rw [text, List.getLast?_append_of_ne_nil _ some_byte] at ended
    exact absurd (List.mem_of_getLast? ended) clean_last

/-! ## Paths within a path -/

/-- A path lies **within** another when it is that path and then leads down only. -/
def Within (base p : Path) : Prop :=
  p.rooted = base.rooted ∧ ∃ below, p.parts = base.parts ++ below ∧ up ∉ below

/-- What stands behind the beginning of a normal form leads up first or not at all. -/
theorem IsNormal.head_eq_up_iff {above below : List Text} (normal : IsNormal rooted (above ++ below)) :
    below.head? = some up ↔ up ∈ below := by
  refine ⟨List.mem_of_mem_head?, fun member => ?_⟩
  obtain ⟨climb, names, same, are_names, -⟩ := normal
  have climbs : ∀ part ∈ (above ++ below).take climb, part = up := by
    intro part front
    rw [same, List.take_left' (List.length_replicate ..)] at front
    exact List.eq_of_mem_replicate front
  have names_behind : (above ++ below).drop climb = names := by
    rw [same, List.drop_left' (List.length_replicate ..)]
  -- If the climb ends before `below` begins, all of `below` are names.
  by_cases early : climb ≤ above.length
  · rw [List.drop_append_of_le_length early] at names_behind
    exact absurd rfl (are_names up (names_behind ▸ List.mem_append_right _ member)).ne_up
  · obtain ⟨first, rest, rfl⟩ := List.exists_cons_of_ne_nil (List.ne_nil_of_mem member)
    have inside : first ∈ (above ++ first :: rest).take climb := by
      refine List.mem_take_iff_getElem.2 ⟨above.length, ?_, by simp⟩
      simp only [List.length_append, List.length_cons]
      omega
    rw [climbs first inside]
    rfl

/-- What has led up once goes on leading up first. -/
theorem head_extend_up (new : List Text) (behind : List Text) :
    (extend false (up :: behind) new).head? = some up := by
  induction new generalizing behind with
  | nil => rw [extend_nil]; rfl
  | cons part new ih =>
    rw [extend_cons]
    rcases extend_cases false (up :: behind) part with
      ⟨same, -⟩ | ⟨rfl, last, down, taken⟩ | ⟨added, -⟩
    · rw [same]
      exact ih behind
    · cases left : extend false (up :: behind) [up] with
      | nil =>
        rw [left] at taken
        simp only [List.nil_append, List.cons.injEq] at taken
        exact absurd taken.1.symm down
      | cons first rest =>
        rw [left] at taken
        simp only [List.cons_append, List.cons.injEq] at taken
        rw [← taken.1]
        exact ih rest
    · rw [added, List.cons_append]
      exact ih _

/-- Components that do not lead up in the end lead to the same place below any path. -/
theorem extend_below {names : List Text} (are_names : ∀ name ∈ names, name ≠ up)
    (stays : (extend false names new).head? ≠ some up) (above : List Text) :
    extend rooted (above ++ names) new = above ++ extend false names new := by
  induction new generalizing names with
  | nil => rw [extend_nil, extend_nil]
  | cons part new ih =>
    rw [extend_cons] at stays ⊢
    rw [extend_cons false]
    by_cases leads : part = here
    · subst leads
      rw [extend_here] at stays ⊢
      rw [extend_here]
      exact ih are_names stays
    by_cases climbs : part = up
    · subst climbs
      rcases List.eq_nil_or_concat' names with rfl | ⟨front, last, rfl⟩
      · exact absurd (head_extend_up new []) stays
      · have down : last ≠ up := are_names last (by simp)
        rw [extend_up_name down] at stays ⊢
        rw [← List.append_assoc, extend_up_name down]
        exact ih (fun name member => are_names name (by simp [member])) stays
    · rw [extend_name leads climbs] at stays ⊢
      rw [extend_name leads climbs, List.append_assoc]
      refine ih (fun name member => ?_) stays
      rcases List.mem_append.1 member with old | new
      · exact are_names name old
      · rwa [List.mem_singleton.1 new]

/-- **A text that does not lead up by itself leads to somewhere within any path.** -/
theorem within_append (relative : isRooted t = false) (stays : (ofText t).parts.head? ≠ some up)
    (base : Path) : Within base (base.append t) := by
  have normal := normal_ofText t
  rw [Normal] at normal
  simp only [ofText, relative] at stays normal
  refine ⟨rfl, extend false [] (components t), ?_, ?_⟩
  · have below : extend base.rooted (base.parts ++ []) (components t) =
        base.parts ++ extend false [] (components t) := extend_below (by simp) stays base.parts
    rwa [List.append_nil] at below
  · intro member
    have normal : IsNormal false ([] ++ extend false [] (components t)) := normal
    exact stays (normal.head_eq_up_iff.2 member)

/-- The text of components that lead up first shows it. -/
theorem relativeText_startsWith_up (rest : List Text) :
    Text.startsWith (relativeText (up :: rest)) ".." = true := by
  rw [relativeText, if_neg (by simp)]
  by_cases last : rest = []
  · rw [last]
    decide
  · rw [joinWith_slash up last]
    exact List.isPrefixOf_iff_prefix.2 (List.prefix_append _ _)

/-- The directory of a path that lies within another, and is not that one, lies within it, too. -/
theorem Within.parent (within : Within base p) (other : p.parts ≠ base.parts) :
    Within base p.parent := by
  obtain ⟨same_root, below, parts, down⟩ := within
  rcases List.eq_nil_or_concat' below with rfl | ⟨front, last, rfl⟩
  · exact absurd (by simpa using parts) other
  · refine ⟨same_root, front, ?_, fun member => down (by simp [member])⟩
    rw [Path.parent, parts, ← List.append_assoc, List.dropLast_concat]

end Path

end FlowTrace
