import Tabular.Statement.Token
import Tabular.Proofs.Text.Captured
import Tabular.Proofs.Text.Splitting

/-!
Groups in parentheses.

Parentheses count where they stand outside literals. A text is `Balanced` if it closes as many of
them as it opens, and `WellNested` if it is made of plain characters, closed literals and groups of
such texts. The reader of a group counts the open parentheses up and down and stops where none is
left; what carries every proof is that its counter and the parentheses of the text still to be read
add up (`Scan.depth?_add`). A group is thus the first balanced beginning of the text
(`parenthesized_firstBalanced`), and it is a pair of parentheses around a well nested text
(`group?_eq_some_iff_wellNested`). `stripParens` looks at the two ends of a text only: they are a
pair exactly where a well nested text stands between them (`stripParens_endsMatch_iff`).
-/

namespace Tabular.Text

/-! ### Counting parentheses -/

/-- A text closes as many parentheses outside its literals as it opens. -/
def Balanced (s : List Char) : Prop :=
  ∃ pieces, CutsInto s pieces ∧ pieces.count (.bare '(') = pieces.count (.bare ')')

/-- The shortest beginning of a text that is balanced and not empty. -/
structure FirstBalanced (group s : List Char) : Prop where
  begins : group <+: s
  ne_nil : group ≠ []
  balanced : Balanced group
  shortest : ∀ p, p <+: s → p ≠ [] → Balanced p → group <+: p

/-- The parentheses that a text opens, from a given state on. -/
def Scan.opens (st : Scan) (s : List Char) : Nat :=
  (st.bare s).count '('

/-- The parentheses that a text closes, from a given state on. -/
def Scan.closes (st : Scan) (s : List Char) : Nat :=
  (st.bare s).count ')'

theorem count_bare_cons {d : Char} (hd : isQuote d = false) (st : Scan) (c : Char)
    (s : List Char) :
    (st.bare (c :: s)).count d =
      (if st = .outside ∧ c = d then 1 else 0) + ((st.next c).bare s).count d := by
  rw [Scan.bare_cons, List.count_append]
  congr 1
  by_cases h : st = .outside ∧ c = d
  · obtain ⟨rfl, rfl⟩ := h
    simp [hd]
  · rw [if_neg h]
    split
    · next hbare =>
      exact List.count_eq_zero.2 fun hmem => h ⟨hbare.1, (List.mem_singleton.1 hmem).symm⟩
    · rfl

theorem balanced_iff {s : List Char} :
    Balanced s ↔ Scan.outside.opens s = Scan.outside.closes s := by
  obtain ⟨pieces, hpieces⟩ := exists_cutsInto s
  unfold Scan.opens Scan.closes
  rw [hpieces.count_bare, hpieces.count_bare]
  constructor
  · rintro ⟨others, hothers, heq⟩
    rwa [hpieces.unique hothers] at heq
  · exact fun h => ⟨pieces, hpieces, h⟩

instance (s : List Char) : Decidable (Balanced s) :=
  decidable_of_iff _ balanced_iff.symm

/-! ### The counter -/

/-- The number of open parentheses after one more character. There is none where it would have to go
below zero. -/
def Scan.depth? (st : Scan) (depth : Nat) (c : Char) : Option Nat :=
  if st = .outside ∧ c = '(' then some (depth + 1)
  else if st = .outside ∧ c = ')' then if depth = 0 then none else some (depth - 1)
  else some depth

/-- Reading on to the end of a group with a counter that cannot go below zero: there is no answer
where it would have to. -/
def closeGroupChecked : Scan → Nat → List Char → Option (Option (List Char × List Char))
  | _, _, [] => some none
  | st, depth, c :: s => do
    let depth ← st.depth? depth c
    if st = .outside ∧ c = ')' ∧ depth = 0 then return some ([c], s)
    let group ← closeGroupChecked (st.next c) depth s
    return group.map fun p => (c :: p.1, p.2)

section Step

variable {st : Scan} {depth later : Nat} {c : Char}

theorem Scan.exists_depth? (h : 0 < depth) (st : Scan) (c : Char) :
    ∃ later, st.depth? depth c = some later := by
  unfold Scan.depth?
  rw [if_neg (Nat.ne_of_gt h)]
  split
  · exact ⟨_, rfl⟩
  · split <;> exact ⟨_, rfl⟩

/-- A character opens a parenthesis, closes one, or leaves the counter as it is. -/
theorem Scan.depth?_cases (h : st.depth? depth c = some later) :
    (st = .outside ∧ c = '(' ∧ later = depth + 1) ∨
      (st = .outside ∧ c = ')' ∧ depth = later + 1) ∨
      (¬(st = .outside ∧ c = '(') ∧ ¬(st = .outside ∧ c = ')') ∧ later = depth) := by
  unfold Scan.depth? at h
  split at h
  · next hopen => exact .inl ⟨hopen.1, hopen.2, (Option.some.inj h).symm⟩
  · next hopen =>
    split at h
    · next hclose =>
      split at h
      · exact nomatch h
      · have hlater := Option.some.inj h
        exact .inr (.inl ⟨hclose.1, hclose.2, by omega⟩)
    · next hclose => exact .inr (.inr ⟨hopen, hclose, (Option.some.inj h).symm⟩)

/-- **What a step keeps**: the counter and the parentheses still to be read add up. -/
theorem Scan.depth?_add (h : st.depth? depth c = some later) (s : List Char) :
    later + (st.next c).opens s + st.closes (c :: s) =
      depth + st.opens (c :: s) + (st.next c).closes s := by
  have hopens : st.opens (c :: s) = _ := count_bare_cons (d := '(') (by decide) st c s
  have hcloses : st.closes (c :: s) = _ := count_bare_cons (d := ')') (by decide) st c s
  rw [hopens, hcloses]
  change later + Scan.opens _ s + (_ + Scan.closes _ s) = depth + (_ + Scan.opens _ s) + _
  rcases Scan.depth?_cases h with ⟨rfl, rfl, hlater⟩ | ⟨rfl, rfl, hlater⟩ | ⟨hopen, hclose, hlater⟩
  · rw [if_neg (by decide), if_pos ⟨rfl, rfl⟩]
    omega
  · rw [if_pos ⟨rfl, rfl⟩, if_neg (by decide)]
    omega
  · rw [if_neg hclose, if_neg hopen]
    omega

/-- The reader of a group goes by the counter. -/
theorem closeGroup_cons (h : st.depth? depth c = some later) (s : List Char) :
    closeGroup st depth (c :: s) =
      if st = .outside ∧ c = ')' ∧ later = 0 then some ([c], s)
      else (closeGroup (st.next c) later s).map fun p => (c :: p.1, p.2) := by
  rcases Scan.depth?_cases h with ⟨rfl, rfl, rfl⟩ | ⟨rfl, rfl, rfl⟩ | ⟨hopen, hclose, rfl⟩
  · rfl
  · rw [closeGroup]
    by_cases hlast : later = 0
    · rw [if_pos (by omega), if_pos ⟨rfl, rfl, hlast⟩]
    · rw [if_neg (by omega), if_neg fun hend => hlast hend.2.2]
      rfl
  · rw [closeGroup, if_neg hopen, if_neg fun hend => hclose ⟨hend.1, hend.2.1⟩]
    rintro rfl rfl
    exact hclose ⟨rfl, rfl⟩

theorem Scan.depth?_of_close (h : Scan.outside.depth? depth ')' = some later) :
    depth = later + 1 := by
  rcases Scan.depth?_cases h with ⟨-, heq, -⟩ | ⟨-, -, heq⟩ | ⟨-, hclose, -⟩
  · exact absurd heq (by decide)
  · exact heq
  · exact absurd ⟨rfl, rfl⟩ hclose

/-- A parenthesis stays open where the group does not end. -/
theorem Scan.depth?_pos (hdepth : 0 < depth) (h : st.depth? depth c = some later)
    (hend : ¬(st = .outside ∧ c = ')' ∧ later = 0)) : 0 < later := by
  rcases Scan.depth?_cases h with ⟨-, -, rfl⟩ | ⟨rfl, rfl, -⟩ | ⟨-, -, rfl⟩
  · exact Nat.succ_pos depth
  · exact Nat.pos_of_ne_zero fun hzero => hend ⟨rfl, rfl, hzero⟩
  · exact hdepth

end Step

/-- **The counter never goes below zero** once a parenthesis is open. -/
theorem closeGroupChecked_eq {depth : Nat} (h : 0 < depth) (st : Scan) (s : List Char) :
    closeGroupChecked st depth s = some (closeGroup st depth s) := by
  induction s generalizing st depth with
  | nil => rfl
  | cons c s ih =>
    obtain ⟨later, hlater⟩ := Scan.exists_depth? h st c
    rw [closeGroupChecked, closeGroup_cons hlater, hlater]
    by_cases hend : st = .outside ∧ c = ')' ∧ later = 0
    · simp [hend]
    · simp [hend, ih (Scan.depth?_pos h hlater hend)]

example : closeGroupChecked .outside 0 [')'] = none := rfl

/-! ### The first balanced beginning -/

/-- What was put in front of a reading can be taken away again. -/
theorem exists_of_map_front {f : List Char → List Char} {read : Option (List Char × List Char)}
    {x rest : List Char} (h : read.map (fun p => (f p.1, p.2)) = some (x, rest)) :
    ∃ y, read = some (y, rest) ∧ f y = x := by
  obtain ⟨⟨y, later⟩, hread, heq⟩ := Option.map_eq_some_iff.1 h
  obtain ⟨rfl, rfl⟩ := Prod.mk.inj heq
  exact ⟨y, hread, rfl⟩

/-- What is read up to the end of a group closes all open parentheses. -/
theorem closes_of_closeGroup {st : Scan} {depth : Nat} (h : 0 < depth) {s group rest : List Char}
    (hgroup : closeGroup st depth s = some (group, rest)) :
    depth + st.opens group = st.closes group := by
  induction s generalizing st depth group with
  | nil => exact nomatch hgroup
  | cons c s ih =>
    obtain ⟨later, hlater⟩ := Scan.exists_depth? h st c
    rw [closeGroup_cons hlater] at hgroup
    split at hgroup
    · next hend =>
      obtain ⟨rfl, rfl, rfl⟩ := hend
      obtain ⟨rfl, -⟩ := Prod.mk.inj (Option.some.inj hgroup)
      rw [Scan.depth?_of_close hlater]
      rfl
    · next hend =>
      obtain ⟨inner, hinner, rfl⟩ := exists_of_map_front (f := (c :: ·)) hgroup
      have hclosed := ih (Scan.depth?_pos h hlater hend) hinner
      have hadd := Scan.depth?_add hlater inner
      omega

/-- A beginning that closes all open parentheses holds a group. -/
theorem exists_closeGroup {st : Scan} {depth : Nat} (h : 0 < depth) {p s : List Char}
    (hp : p <+: s) (hclosed : depth + st.opens p = st.closes p) :
    ∃ group rest, closeGroup st depth s = some (group, rest) ∧ group <+: p := by
  induction s generalizing st depth p with
  | nil =>
    obtain rfl := List.prefix_nil.1 hp
    exact absurd hclosed (Nat.ne_of_gt h)
  | cons c s ih =>
    obtain ⟨later, hlater⟩ := Scan.exists_depth? h st c
    rcases List.prefix_cons_iff.1 hp with rfl | ⟨q, rfl, hq⟩
    · exact absurd hclosed (Nat.ne_of_gt h)
    rw [closeGroup_cons hlater]
    split
    · exact ⟨[c], s, rfl, by simp⟩
    · next hend =>
      have hadd := Scan.depth?_add hlater q
      have hinner : later + (st.next c).opens q = (st.next c).closes q := by omega
      obtain ⟨group, rest, hgroup, hbegins⟩ := ih (Scan.depth?_pos h hlater hend) hq hinner
      exact ⟨c :: group, rest, by rw [hgroup]; rfl, (List.prefix_cons_inj c).2 hbegins⟩

theorem balanced_open {p : List Char} :
    Balanced ('(' :: p) ↔ 1 + Scan.outside.opens p = Scan.outside.closes p := by
  have hopen : Scan.outside.depth? 0 '(' = some 1 := rfl
  have hadd : 1 + Scan.outside.opens p + Scan.outside.closes ('(' :: p) =
      0 + Scan.outside.opens ('(' :: p) + Scan.outside.closes p := Scan.depth?_add hopen p
  rw [balanced_iff]
  omega

section Group

variable {s p group rest : List Char}

theorem group?_open (s : List Char) :
    group? ('(' :: s) = (closeGroup .outside 1 s).map fun p => ('(' :: p.1, p.2) :=
  rfl

theorem head?_of_group? (h : group? s = some (group, rest)) : s.head? = some '(' := by
  unfold group? at h
  split at h
  · next hopen => exact hopen
  · exact nomatch h

/-- A balanced beginning holds a group. -/
theorem exists_group? (hopen : s.head? = some '(') (hp : p <+: s) (hne : p ≠ [])
    (hbalanced : Balanced p) : ∃ group rest, group? s = some (group, rest) ∧ group <+: p := by
  obtain ⟨s, rfl⟩ := List.head?_eq_some_iff.1 hopen
  obtain ⟨p, rfl, hinner⟩ := (List.prefix_cons_iff.1 hp).resolve_left hne
  obtain ⟨group, rest, hgroup, hbegins⟩ :=
    exists_closeGroup Nat.one_pos hinner (balanced_open.1 hbalanced)
  rw [group?_open, hgroup]
  exact ⟨_, _, rfl, (List.prefix_cons_inj '(').2 hbegins⟩

/-- **A group is the first balanced beginning of the text.** -/
theorem group?_firstBalanced (h : group? s = some (group, rest)) :
    s = group ++ rest ∧ FirstBalanced group s := by
  have hopen := head?_of_group? h
  obtain ⟨hs, hends⟩ := group?_eq_some h
  have hne : group ≠ [] := by
    rw [hends]
    exact List.cons_ne_nil _ _
  refine ⟨hs, ⟨rest, hs.symm⟩, hne, ?_, fun p hp hne hbalanced => ?_⟩
  · obtain ⟨s, rfl⟩ := List.head?_eq_some_iff.1 hopen
    obtain ⟨inner, hinner, rfl⟩ :=
      exists_of_map_front (f := ('(' :: ·)) ((group?_open s).symm.trans h)
    exact balanced_open.2 (closes_of_closeGroup Nat.one_pos hinner)
  · obtain ⟨first, later, hfirst, hbegins⟩ := exists_group? hopen hp hne hbalanced
    obtain ⟨rfl, -⟩ := Prod.mk.inj (Option.some.inj (hfirst.symm.trans h))
    exact hbegins

/-- Reading a group, the counter never goes below zero. -/
theorem closeGroupChecked_open (hopen : s.head? = some '(') :
    closeGroupChecked .outside 0 s = some (group? s) := by
  obtain ⟨s, rfl⟩ := List.head?_eq_some_iff.1 hopen
  have hdepth : Scan.outside.depth? 0 '(' = some 1 := rfl
  have hchecked : closeGroupChecked (Scan.outside.next '(') 1 s = some (closeGroup .outside 1 s) :=
    closeGroupChecked_eq Nat.one_pos .outside s
  rw [closeGroupChecked, hdepth]
  simp [hchecked, group?_open]

end Group

theorem parenthesized_eq_found_iff {s rest : List Char} {group : String} :
    Token.parenthesized s = .found group rest ↔ group? s = some (group.toList, rest) := by
  unfold Token.parenthesized
  rw [Reader.bind_apply]
  unfold Reader.ofScanner
  cases group? s with
  | none => exact ⟨nofun, nofun⟩
  | some found =>
    have hread : Reading.found (String.ofList found.1) found.2 = .found group rest ↔
        some found = some (group.toList, rest) := by
      rw [Reading.found.injEq, Option.some.injEq, Prod.ext_iff, ← String.toList_inj,
        String.toList_ofList]
    exact hread

/-- **A parenthesized group is the first balanced beginning of a text.** It is found exactly where
the text starts with a parenthesis and has a balanced beginning at all, and it is the shortest one
that is not empty, followed by the text that is left; and the counter of open parentheses never goes
below zero. -/
theorem parenthesized_firstBalanced (s : List Char) :
    ((∃ group rest, Token.parenthesized s = .found group rest) ↔
        s.head? = some '(' ∧ ∃ p, p <+: s ∧ p ≠ [] ∧ Balanced p) ∧
      (∀ group rest, Token.parenthesized s = .found group rest →
        s = group.toList ++ rest ∧ FirstBalanced group.toList s) ∧
      (s.head? = some '(' → closeGroupChecked .outside 0 s = some (group? s)) := by
  refine ⟨⟨?_, ?_⟩, fun group rest h => ?_, closeGroupChecked_open⟩
  · rintro ⟨group, rest, h⟩
    have hgroup := parenthesized_eq_found_iff.1 h
    obtain ⟨-, hfirst⟩ := group?_firstBalanced hgroup
    exact ⟨head?_of_group? hgroup, _, hfirst.begins, hfirst.ne_nil, hfirst.balanced⟩
  · rintro ⟨hopen, p, hp, hne, hbalanced⟩
    obtain ⟨group, rest, hgroup, -⟩ := exists_group? hopen hp hne hbalanced
    refine ⟨String.ofList group, rest, parenthesized_eq_found_iff.2 ?_⟩
    rw [String.toList_ofList, hgroup]
  · exact group?_firstBalanced (parenthesized_eq_found_iff.1 h)

/-- Neither a parenthesis in a literal nor one behind an escaped quote counts. -/
theorem parenthesized_firstBalanced_of_hidden_parentheses :
    Token.parenthesized "((a), '\\')', b) c)".toList =
        .found "((a), '\\')', b)" " c)".toList ∧
      FirstBalanced "((a), '\\')', b)".toList "((a), '\\')', b) c)".toList ∧
      closeGroupChecked .outside 0 "((a), '\\')', b) c)".toList =
        some (some ("((a), '\\')', b)".toList, " c)".toList)) := by
  have hread : Token.parenthesized "((a), '\\')', b) c)".toList =
      .found "((a), '\\')', b)" " c)".toList := by decide
  have hgroup : group? "((a), '\\')', b) c)".toList =
      some ("((a), '\\')', b)".toList, " c)".toList) := by decide
  obtain ⟨-, hfound, hchecked⟩ := parenthesized_firstBalanced "((a), '\\')', b) c)".toList
  exact ⟨hread, (hfound _ _ hread).2, (hchecked rfl).trans (congrArg some hgroup)⟩

/-! ### Well nested texts -/

/-- A text of plain characters, closed literals and groups in parentheses, one after another. -/
inductive WellNested : List Char → Prop where
  | nil : WellNested []
  | plain {c : Char} {s : List Char} (not_quote : isQuote c = false) (not_open : c ≠ '(')
      (not_close : c ≠ ')') (rest : WellNested s) : WellNested (c :: s)
  | literal {quote : Char} {body s : List Char} (quote_opens : isQuote quote = true)
      (inside : LiteralBody quote body) (rest : WellNested s) :
      WellNested (quote :: (body ++ quote :: s))
  | group {inner s : List Char} (inside : WellNested inner) (rest : WellNested s) :
      WellNested ('(' :: (inner ++ ')' :: s))

/-- Well nested texts up to the parenthesis that closes the last of some open ones; so many of them
are open besides the innermost. -/
inductive ClosesNested : Nat → List Char → Prop where
  | last {inner : List Char} (inside : WellNested inner) : ClosesNested 0 (inner ++ [')'])
  | more {depth : Nat} {inner group : List Char} (inside : WellNested inner)
      (rest : ClosesNested depth group) : ClosesNested (depth + 1) (inner ++ ')' :: group)

theorem ClosesNested.prepend {depth : Nat} {p group : List Char}
    (hp : ∀ s, WellNested s → WellNested (p ++ s)) (h : ClosesNested depth group) :
    ClosesNested depth (p ++ group) := by
  cases h with
  | last hinner =>
    rw [← List.append_assoc]
    exact .last (hp _ hinner)
  | more hinner hgroup =>
    rw [← List.append_assoc]
    exact .more (hp _ hinner) hgroup

theorem closeGroup_open (depth : Nat) (s : List Char) :
    closeGroup .outside depth ('(' :: s) =
      (closeGroup .outside (depth + 1) s).map fun p => ('(' :: p.1, p.2) :=
  rfl

theorem closeGroup_close (depth : Nat) (s : List Char) :
    closeGroup .outside (depth + 1 + 1) (')' :: s) =
      (closeGroup .outside (depth + 1) s).map fun p => (')' :: p.1, p.2) := by
  rw [closeGroup, if_neg (by omega)]
  rfl

theorem closeGroup_plain {c : Char} (hquote : isQuote c = false) (hopen : c ≠ '(')
    (hclose : c ≠ ')') (depth : Nat) (s : List Char) :
    closeGroup .outside depth (c :: s) =
      (closeGroup .outside depth s).map fun p => (c :: p.1, p.2) := by
  have hbare : Scan.outside.bare [c] = [c] := by
    rw [Scan.bare_cons, if_pos ⟨rfl, hquote⟩]
    rfl
  have hnot : ∀ d, c ≠ d → d ∉ Scan.outside.bare [c] := by
    intro d hd hmem
    rw [hbare, List.mem_singleton] at hmem
    exact hd hmem.symm
  have h := closeGroup_append (hnot '(' hopen) (hnot ')' hclose) depth s
  rw [Scan.run_cons, Scan.next_of_not_quote hquote] at h
  exact h

/-- Reading a group passes over what literals hide. -/
theorem closeGroup_of_bare_eq_nil {s : List Char} (h : Scan.outside.bare s = []) (depth : Nat)
    (t : List Char) :
    closeGroup .outside depth (s ++ t) =
      (closeGroup (Scan.outside.run s) depth t).map fun p => (s ++ p.1, p.2) :=
  closeGroup_append (h ▸ List.not_mem_nil) (h ▸ List.not_mem_nil) depth t

theorem closeGroup_literal {quote : Char} {body : List Char} (hquote : isQuote quote = true)
    (hbody : LiteralBody quote body) (depth : Nat) (s : List Char) :
    closeGroup .outside depth (quote :: (body ++ quote :: s)) =
      (closeGroup .outside depth s).map fun p => (quote :: (body ++ quote :: p.1), p.2) := by
  have hclosed : Scan.outside.run (quote :: (body ++ [quote])) = .outside := hbody.closed hquote
  have h := closeGroup_of_bare_eq_nil (hbody.bare_closed hquote []) depth s
  rw [hclosed] at h
  simpa using h

/-- Reading a group passes over a well nested text. -/
theorem WellNested.closeGroup_append {inner : List Char} (h : WellNested inner) (depth : Nat)
    (s : List Char) :
    closeGroup .outside (depth + 1) (inner ++ s) =
      (closeGroup .outside (depth + 1) s).map fun p => (inner ++ p.1, p.2) := by
  induction h generalizing depth s with
  | nil => simp
  | plain hquote hopen hclose _ ih =>
    rw [List.cons_append, closeGroup_plain hquote hopen hclose, ih, Option.map_map]
    rfl
  | literal hquote hbody _ ih =>
    simp only [List.cons_append, List.append_assoc]
    rw [closeGroup_literal hquote hbody, ih, Option.map_map]
    rfl
  | group _ _ ihinner ihlater =>
    simp only [List.cons_append, List.append_assoc]
    rw [closeGroup_open, ihinner, closeGroup_close, ihlater]
    simp only [Option.map_map]
    rfl

theorem closeGroup_unclosed {quote : Char} {body dangling : List Char}
    (hquote : isQuote quote = true) (hbody : LiteralBody quote body)
    (hends : dangling = [] ∨ dangling = ['\\']) (depth : Nat) :
    closeGroup .outside depth (quote :: (body ++ dangling)) = none := by
  have h := closeGroup_of_bare_eq_nil (hbody.bare_unclosed hquote hends) depth []
  simpa [closeGroup] using h

/-- **What is read up to the end of a group is well nested.** The induction is on the pieces of the
text, so that a literal is passed over as a whole. -/
theorem closesNested_of_closeGroup {depth : Nat} {s group rest : List Char}
    (h : closeGroup .outside (depth + 1) s = some (group, rest)) : ClosesNested depth group := by
  obtain ⟨pieces, hpieces⟩ := exists_cutsInto s
  induction hpieces generalizing depth group with
  | nil => exact nomatch h
  | @bare c s _ hquote _ ih =>
    by_cases hopen : c = '('
    · subst hopen
      rw [closeGroup_open] at h
      obtain ⟨g, hg, rfl⟩ := exists_of_map_front (f := ('(' :: ·)) h
      cases ih hg with
      | @more _ inner later hinner hlater =>
        simpa using hlater.prepend (p := '(' :: (inner ++ [')']))
          fun t ht => by simpa using WellNested.group hinner ht
    by_cases hclose : c = ')'
    · subst hclose
      cases depth with
      | zero =>
        obtain ⟨rfl, -⟩ := Prod.mk.inj (Option.some.inj h)
        exact .last .nil
      | succ depth =>
        rw [closeGroup_close] at h
        obtain ⟨g, hg, rfl⟩ := exists_of_map_front (f := (')' :: ·)) h
        exact .more .nil (ih hg)
    · rw [closeGroup_plain hquote hopen hclose] at h
      obtain ⟨g, hg, rfl⟩ := exists_of_map_front (f := (c :: ·)) h
      exact (ih hg).prepend (p := [c]) fun t ht => .plain hquote hopen hclose ht
  | @closed quote body s _ hquote hbody _ ih =>
    rw [closeGroup_literal hquote hbody] at h
    obtain ⟨g, hg, rfl⟩ := exists_of_map_front (f := fun g => quote :: (body ++ quote :: g)) h
    simpa using (ih hg).prepend (p := quote :: (body ++ [quote]))
      fun t ht => by simpa using WellNested.literal hquote hbody ht
  | unclosed hquote hbody hends =>
    rw [closeGroup_unclosed hquote hbody hends] at h
    exact nomatch h

/-- **A group is a pair of parentheses around a well nested text.** -/
theorem group?_eq_some_iff_wellNested {s group rest : List Char} :
    group? s = some (group, rest) ↔
      s = group ++ rest ∧ ∃ inner, group = '(' :: (inner ++ [')']) ∧ WellNested inner := by
  constructor
  · intro h
    obtain ⟨hs, -⟩ := group?_eq_some h
    obtain ⟨s, rfl⟩ := List.head?_eq_some_iff.1 (head?_of_group? h)
    obtain ⟨g, hg, rfl⟩ := exists_of_map_front (f := ('(' :: ·)) ((group?_open s).symm.trans h)
    have hnested : ClosesNested 0 g := closesNested_of_closeGroup hg
    cases hnested with
    | last hinner => exact ⟨hs, _, rfl, hinner⟩
  · rintro ⟨rfl, inner, rfl, hinner⟩
    have hclose : closeGroup .outside 1 (')' :: rest) = some ([')'], rest) := rfl
    rw [List.cons_append, List.append_assoc, group?_open, hinner.closeGroup_append 0,
      List.singleton_append, hclose]
    rfl

/-! ### Taking parentheses off -/

/-- A text starts with a parenthesis and ends with the one that closes it. -/
structure EndsMatch (s : List Char) : Prop where
  opens : s.head? = some '('
  first : FirstBalanced s s

theorem endsMatch_of_group? {s group rest : List Char} (h : group? s = some (group, rest)) :
    EndsMatch group := by
  obtain ⟨-, hends⟩ := group?_eq_some h
  obtain ⟨-, hfirst⟩ := group?_firstBalanced h
  refine ⟨by rw [hends]; rfl, List.prefix_refl group, hfirst.ne_nil, hfirst.balanced, ?_⟩
  exact fun p hp => hfirst.shortest p (hp.trans hfirst.begins)

theorem endsMatch_iff {inner : List Char} :
    EndsMatch ('(' :: (inner ++ [')'])) ↔ WellNested inner := by
  constructor
  · rintro ⟨hopen, hfirst⟩
    obtain ⟨group, rest, hgroup, hbegins⟩ :=
      exists_group? hopen hfirst.begins hfirst.ne_nil hfirst.balanced
    obtain ⟨-, hother⟩ := group?_firstBalanced hgroup
    have hall := hfirst.shortest group hbegins hother.ne_nil hother.balanced
    obtain rfl := hbegins.eq_of_length_le hall.length_le
    obtain ⟨-, nested, heq, hnested⟩ := group?_eq_some_iff_wellNested.1 hgroup
    exact List.append_cancel_right (List.cons.inj heq).2 ▸ hnested
  · intro h
    exact endsMatch_of_group?
      (group?_eq_some_iff_wellNested.2 ⟨(List.append_nil _).symm, inner, rfl, h⟩)

theorem tight_parens (inner : List Char) : Tight ('(' :: (inner ++ [')'])) :=
  (Tight.of_forall (by decide) : Tight [')']).enclose (by decide) (List.cons_ne_nil _ _)

/-- Parentheses are taken off exactly where a text has them at its two ends. -/
theorem stripParens_cases (s : List Char) :
    (stripParens s = trim s ∧ ∀ inner, trim s ≠ '(' :: (inner ++ [')'])) ∨
      trim s = '(' :: (stripParens s ++ [')']) := by
  unfold stripParens
  dsimp only
  split
  · next hends =>
    obtain ⟨hopen, hclose⟩ := hends
    obtain ⟨t, ht⟩ := List.head?_eq_some_iff.1 hopen
    rw [ht] at hclose ⊢
    obtain ⟨inner, rfl⟩ := List.getLast?_eq_some_iff.1 hclose
    exact .inr (by simp [dropEnds])
  · next hends =>
    refine .inl ⟨rfl, fun inner hinner => hends ?_⟩
    rw [hinner]
    exact ⟨rfl, List.getLast?_concat⟩

/-- **Parentheses are taken off the two ends of a text, whether they are a pair or not.** They are a
pair exactly if the text between them is well nested, as it is where the text was read as a group;
a text without parentheses at both ends is left as it is. -/
theorem stripParens_endsMatch_iff (s : List Char) :
    ((stripParens s = trim s ∧ ∀ inner, trim s ≠ '(' :: (inner ++ [')'])) ∨
        trim s = '(' :: (stripParens s ++ [')']) ∧
          (EndsMatch (trim s) ↔ WellNested (stripParens s))) ∧
      ∀ read rest, group? read = some (s, rest) → EndsMatch (trim s) := by
  refine ⟨(stripParens_cases s).imp_right fun h => ⟨h, ?_⟩, fun read rest hread => ?_⟩
  · rw [h]
    exact endsMatch_iff
  · obtain ⟨-, inner, rfl, -⟩ := group?_eq_some_iff_wellNested.1 hread
    rw [(tight_parens inner).trim_eq]
    exact endsMatch_of_group? hread

/-- A list that holds another one, with a parenthesis in a literal. -/
theorem stripParens_endsMatch_of_nested_list :
    group? "(1, (2, ')')), 3".toList = some ("(1, (2, ')'))".toList, ", 3".toList) ∧
      EndsMatch (trim "(1, (2, ')'))".toList) ∧
      stripParens "(1, (2, ')'))".toList = "1, (2, ')')".toList ∧
      WellNested "1, (2, ')')".toList := by
  have hread : group? "(1, (2, ')')), 3".toList =
      some ("(1, (2, ')'))".toList, ", 3".toList) := by decide
  have hstrip : stripParens "(1, (2, ')'))".toList = "1, (2, ')')".toList := by decide
  obtain ⟨hcases, hgroup⟩ := stripParens_endsMatch_iff "(1, (2, ')'))".toList
  have hpair := hgroup _ _ hread
  refine ⟨hread, hpair, hstrip, ?_⟩
  rcases hcases with ⟨hsame, -⟩ | ⟨-, hiff⟩
  · exact absurd hsame (by decide)
  · exact hstrip ▸ hiff.1 hpair

/-- The outer parentheses of several lists are no pair, and are taken off all the same. -/
theorem not_stripParens_endsMatch :
    ¬∀ s : List Char, stripParens s = trim s ∨
      trim s = '(' :: (stripParens s ++ [')']) ∧ EndsMatch (trim s) := by
  intro h
  rcases h "(1, 'a'), (2, 'b')".toList with hsame | ⟨-, hpair⟩
  · exact absurd hsame (by decide)
  · have hbegins := hpair.first.shortest "(1, 'a')".toList (by decide) (by decide) (by decide)
    exact absurd hbegins.length_le (by decide)

end Tabular.Text
