import Tabular.Proofs.Text.Literal

/-!
Cutting a text at a separator.

`CutsInto` says without a scanner what the literals of a text are: a quote that stands outside the
literals before it opens one, which runs to the next unescaped quote of its kind or to the end of
the text, and a backslash in it takes the next character with it. Every text is cut into literals
and the bare characters between them in exactly one way (`exists_cutsInto`, `CutsInto.unique`).
Main statement: `splitOutside` cuts exactly at the bare separators, loses nothing else, and leaves
no part that it would cut further (`splitOutside_faithful`).
-/

namespace Tabular.Text

/-! ### Literals and bare characters -/

/-- A piece of a text. -/
inductive Piece where
  /-- A character outside all literals. -/
  | bare (c : Char)
  /-- A literal, quotes included. -/
  | literal (text : List Char)
  deriving DecidableEq

/-- A text consists of some pieces, one after the other. -/
inductive CutsInto : List Char → List Piece → Prop where
  | nil : CutsInto [] []
  | bare {c : Char} {s : List Char} {pieces : List Piece} (not_quote : isQuote c = false)
      (rest : CutsInto s pieces) : CutsInto (c :: s) (.bare c :: pieces)
  | closed {quote : Char} {body s : List Char} {pieces : List Piece}
      (quote_opens : isQuote quote = true) (inside : LiteralBody quote body)
      (rest : CutsInto s pieces) :
      CutsInto (quote :: (body ++ quote :: s)) (.literal (quote :: (body ++ [quote])) :: pieces)
  /-- A literal that the text ends in, perhaps with a backslash that has nothing to escape. -/
  | unclosed {quote : Char} {body dangling : List Char} (quote_opens : isQuote quote = true)
      (inside : LiteralBody quote body) (ends : dangling = [] ∨ dangling = ['\\']) :
      CutsInto (quote :: (body ++ dangling)) [.literal (quote :: (body ++ dangling))]

/-- Behind an opening quote there is a closing one, or the literal runs to the end. -/
def RunsOn (quote : Char) (s : List Char) : Prop :=
  (∃ body rest, s = body ++ quote :: rest ∧ LiteralBody quote body) ∨
    ∃ body dangling, s = body ++ dangling ∧ LiteralBody quote body ∧
      (dangling = [] ∨ dangling = ['\\'])

theorem RunsOn.prepend {quote : Char} {p s : List Char}
    (hp : ∀ body, LiteralBody quote body → LiteralBody quote (p ++ body)) (h : RunsOn quote s) :
    RunsOn quote (p ++ s) := by
  rcases h with ⟨body, rest, rfl, hbody⟩ | ⟨body, dangling, rfl, hbody, hends⟩
  · exact .inl ⟨p ++ body, rest, (List.append_assoc ..).symm, hp body hbody⟩
  · exact .inr ⟨p ++ body, dangling, (List.append_assoc ..).symm, hp body hbody, hends⟩

theorem runsOn (quote : Char) : ∀ s : List Char, RunsOn quote s
  | [] => .inr ⟨[], [], rfl, .nil, .inl rfl⟩
  | c :: s => by
    by_cases hquote : c = quote
    · exact .inl ⟨[], s, by rw [hquote]; rfl, .nil⟩
    by_cases hback : c = '\\'
    · match s with
      | [] => exact .inr ⟨[], [c], rfl, .nil, .inr (by rw [hback])⟩
      | d :: s =>
        exact (runsOn quote s).prepend (p := [c, d]) fun _ h => hback ▸ .escaped d h
    · exact (runsOn quote s).prepend (p := [c]) fun _ h => .char hback hquote h

namespace LiteralBody

variable {quote : Char} {body dangling : List Char}

theorem bare_unclosed (h : LiteralBody quote body) (hquote : isQuote quote = true)
    (ends : dangling = [] ∨ dangling = ['\\']) :
    Scan.outside.bare (quote :: (body ++ dangling)) = [] := by
  have hdangling : (Scan.inside quote false).bare dangling = [] := by
    rcases ends with rfl | rfl <;> rfl
  rw [Scan.bare_cons, next_outside_quote hquote, Scan.bare_append, h.bare_eq, h.run_eq, hdangling]
  simp [hquote]

theorem closeLiteral_unclosed (h : LiteralBody quote body)
    (ends : dangling = [] ∨ dangling = ['\\']) :
    closeLiteral quote false (body ++ dangling) = none := by
  rw [h.closeLiteral_append]
  rcases ends with rfl | rfl <;> rfl

end LiteralBody

/-- Every text consists of literals and bare characters. -/
theorem exists_cutsInto : ∀ s : List Char, ∃ pieces, CutsInto s pieces
  | [] => ⟨[], .nil⟩
  | c :: s => by
    by_cases hquote : isQuote c = true
    · rcases runsOn c s with ⟨body, rest, hs, hbody⟩ | ⟨body, dangling, rfl, hbody, hends⟩
      · have : rest.length < s.length + 1 := by simp [hs]; omega
        obtain ⟨pieces, hrest⟩ := exists_cutsInto rest
        exact ⟨_, hs ▸ CutsInto.closed hquote hbody hrest⟩
      · exact ⟨_, .unclosed hquote hbody hends⟩
    · obtain ⟨pieces, hs⟩ := exists_cutsInto s
      exact ⟨_, .bare (Bool.eq_false_iff.2 hquote) hs⟩
termination_by s => s.length

namespace CutsInto

variable {s : List Char} {pieces : List Piece}

theorem of_bare {c : Char} (hquote : isQuote c = false) (h : CutsInto (c :: s) pieces) :
    ∃ later, pieces = .bare c :: later ∧ CutsInto s later := by
  generalize ht : c :: s = t at h
  cases h with
  | nil => exact nomatch ht
  | bare _ hs =>
    obtain ⟨rfl, rfl⟩ := List.cons.inj ht
    exact ⟨_, rfl, hs⟩
  | closed hopens => exact absurd hquote (by simp [(List.cons.inj ht).1, hopens])
  | unclosed hopens => exact absurd hquote (by simp [(List.cons.inj ht).1, hopens])

/-- Behind an opening quote the first piece is the literal that is read there. -/
theorem of_quote {quote : Char} (hquote : isQuote quote = true)
    (h : CutsInto (quote :: s) pieces) :
    (∃ inside rest later, closeLiteral quote false s = some (inside, rest) ∧
      pieces = .literal (quote :: inside) :: later ∧ CutsInto rest later) ∨
      closeLiteral quote false s = none ∧ pieces = [.literal (quote :: s)] := by
  generalize ht : quote :: s = t at h
  cases h with
  | nil => exact nomatch ht
  | bare hplain => exact absurd hquote (by simp [(List.cons.inj ht).1, hplain])
  | closed _ hbody hrest =>
    obtain ⟨rfl, rfl⟩ := List.cons.inj ht
    exact .inl ⟨_, _, _, hbody.closeLiteral_closed hquote _, rfl, hrest⟩
  | unclosed _ hbody hends =>
    obtain ⟨rfl, rfl⟩ := List.cons.inj ht
    exact .inr ⟨hbody.closeLiteral_unclosed hends, rfl⟩

/-- There is no other way to cut a text. -/
theorem unique (h : CutsInto s pieces) {others : List Piece} (hothers : CutsInto s others) :
    others = pieces := by
  induction h generalizing others with
  | nil =>
    cases hothers
    rfl
  | bare hquote _ ih =>
    obtain ⟨later, rfl, hlater⟩ := hothers.of_bare hquote
    rw [ih hlater]
  | @closed quote body s pieces hquote hbody _ ih =>
    have hclose := hbody.closeLiteral_closed hquote s
    rcases hothers.of_quote hquote with ⟨inside, rest, later, hread, rfl, hlater⟩ | ⟨hread, -⟩
    · obtain ⟨rfl, rfl⟩ := Prod.mk.inj (Option.some.inj (hclose.symm.trans hread))
      rw [ih hlater]
    · exact nomatch hclose.symm.trans hread
  | unclosed hquote hbody hends =>
    have hclose := hbody.closeLiteral_unclosed hends
    rcases hothers.of_quote hquote with ⟨inside, rest, later, hread, -⟩ | ⟨-, rfl⟩
    · exact nomatch hclose.symm.trans hread
    · rfl

/-- The bare characters of a text are those that a scanner finds outside. -/
theorem count_bare (h : CutsInto s pieces) (c : Char) :
    (Scan.outside.bare s).count c = pieces.count (.bare c) := by
  induction h with
  | nil => rfl
  | @bare d s pieces hquote _ ih =>
    rw [Scan.bare_cons, if_pos ⟨rfl, hquote⟩, Scan.next_of_not_quote hquote, List.singleton_append,
      List.count_cons, List.count_cons, ih]
    simp
  | closed hquote hbody _ ih =>
    rw [hbody.bare_closed hquote, ih, List.count_cons_of_ne (by simp)]
  | unclosed hquote hbody hends =>
    rw [hbody.bare_unclosed hquote hends]
    simp

end CutsInto

/-! ### Splitting -/

theorem consHead_append (c : Char) {parts : List (List Char)} (h : parts ≠ [])
    (more : List (List Char)) : consHead c (parts ++ more) = consHead c parts ++ more := by
  cases parts with
  | nil => exact absurd rfl h
  | cons p ps => rfl

theorem splitFrom_ne_nil (separator : Char) (st : Scan) (s : List Char) :
    splitFrom separator st s ≠ [] := by
  cases s with
  | nil => exact List.cons_ne_nil _ _
  | cons c s =>
    unfold splitFrom
    split
    · exact List.cons_ne_nil _ _
    · cases splitFrom separator (st.next c) s <;> exact List.cons_ne_nil _ _

/-- **A separator after which no literal is open ends a part**, whatever was cut before it. -/
theorem splitFrom_append_separator {separator : Char} (hsep : isQuote separator = false) {st : Scan}
    {s : List Char} (hs : st.run s = .outside) (t : List Char) :
    splitFrom separator st (s ++ separator :: t) =
      splitFrom separator st s ++ splitOutside separator t := by
  induction s generalizing st with
  | nil =>
    obtain rfl : st = .outside := hs
    have hcut : splitFrom separator .outside (separator :: t) =
        [] :: splitFrom separator .outside t := by
      rw [splitFrom, if_pos ⟨rfl, hsep, rfl⟩]
    exact hcut
  | cons c s ih =>
    rw [List.cons_append, splitFrom, splitFrom]
    by_cases hcut : st = .outside ∧ isQuote c = false ∧ c = separator
    · obtain ⟨rfl, hquote, rfl⟩ := hcut
      have hlater : Scan.outside.run s = .outside := by
        rw [Scan.run_cons, Scan.next_of_not_quote hquote] at hs
        exact hs
      rw [if_pos ⟨rfl, hquote, rfl⟩, if_pos ⟨rfl, hquote, rfl⟩, ih hlater, List.cons_append]
    · rw [if_neg hcut, if_neg hcut, ih hs, consHead_append c (splitFrom_ne_nil _ _ _)]

/-- No part holds a bare separator, where the first part is read from the state at the start and the
others from outside. -/
theorem separator_not_bare {separator : Char} {st : Scan} {s p : List Char} {ps : List (List Char)}
    (h : splitFrom separator st s = p :: ps) :
    separator ∉ st.bare p ∧ ∀ q ∈ ps, separator ∉ Scan.outside.bare q := by
  induction s generalizing st p ps with
  | nil =>
    obtain ⟨rfl, rfl⟩ := List.cons.inj h
    exact ⟨List.not_mem_nil, nofun⟩
  | cons c s ih =>
    obtain ⟨q, qs, hparts⟩ := List.exists_cons_of_ne_nil (splitFrom_ne_nil separator (st.next c) s)
    obtain ⟨hq, hqs⟩ := ih hparts
    rw [splitFrom] at h
    split at h
    · next hcut =>
      obtain ⟨rfl, hquote, rfl⟩ := hcut
      rw [Scan.next_of_not_quote hquote] at hparts hq
      rw [hparts] at h
      obtain ⟨rfl, rfl⟩ := List.cons.inj h
      exact ⟨List.not_mem_nil, List.forall_mem_cons.2 ⟨hq, hqs⟩⟩
    · next hcut =>
      rw [hparts] at h
      obtain ⟨rfl, rfl⟩ := List.cons.inj h
      refine ⟨fun hmem => ?_, hqs⟩
      rw [Scan.bare_cons, List.mem_append] at hmem
      rcases hmem with hmem | hmem
      · split at hmem
        · next hbare => exact hcut ⟨hbare.1, hbare.2, (List.mem_singleton.1 hmem).symm⟩
        · exact absurd hmem List.not_mem_nil
      · exact hq hmem

theorem length_consHead (c : Char) {parts : List (List Char)} (h : parts ≠ []) :
    (consHead c parts).length = parts.length := by
  cases parts with
  | nil => exact absurd rfl h
  | cons p ps => rfl

section Parts

variable (separator : Char) (st : Scan) (s : List Char)

/-- **The parts are what stands between the separators**: joined by them, they are the text. -/
theorem intercalate_splitFrom : [separator].intercalate (splitFrom separator st s) = s := by
  induction s generalizing st with
  | nil => rfl
  | cons c s ih =>
    rw [splitFrom]
    split
    · next hcut =>
      obtain ⟨-, -, rfl⟩ := hcut
      rw [List.intercalate_cons_of_ne_nil (splitFrom_ne_nil _ _ _), ih]
      rfl
    · have hlater := ih (st.next c)
      obtain ⟨p, ps, hparts⟩ :=
        List.exists_cons_of_ne_nil (splitFrom_ne_nil separator (st.next c) s)
      rw [hparts] at hlater ⊢
      cases ps with
      | nil => simpa [consHead] using hlater
      | cons q qs => simpa [consHead] using hlater

/-- Each bare separator makes one more part. -/
theorem length_splitFrom :
    (splitFrom separator st s).length = 1 + (st.bare s).count separator := by
  induction s generalizing st with
  | nil => rfl
  | cons c s ih =>
    rw [splitFrom, Scan.bare_cons, List.count_append]
    split
    · next hcut =>
      obtain ⟨rfl, hquote, rfl⟩ := hcut
      rw [List.length_cons, ih, if_pos ⟨rfl, hquote⟩, Scan.next_of_not_quote hquote,
        List.count_singleton_self]
      omega
    · next hcut =>
      have hnone : (if st = .outside ∧ isQuote c = false then [c] else []).count separator = 0 := by
        split
        · next hbare =>
          exact List.count_eq_zero.2 fun hmem =>
            hcut ⟨hbare.1, hbare.2, (List.mem_singleton.1 hmem).symm⟩
        · rfl
      rw [length_consHead c (splitFrom_ne_nil _ _ _), ih, hnone, Nat.zero_add]

end Parts

/-- **Splitting is faithful.** The parts joined by the separator are the text; no part would be cut
any further; and there is one part more than the separator occurs among the bare characters of the
text, in the one way in which it is cut into literals and bare characters. -/
theorem splitOutside_faithful (separator : Char) (s : List Char) :
    [separator].intercalate (splitOutside separator s) = s ∧
      (∀ part ∈ splitOutside separator s, splitOutside separator part = [part]) ∧
      ∃ pieces, CutsInto s pieces ∧ (∀ others, CutsInto s others → others = pieces) ∧
        (splitOutside separator s).length = 1 + pieces.count (.bare separator) := by
  refine ⟨intercalate_splitFrom separator .outside s, fun part hpart => ?_, ?_⟩
  · obtain ⟨p, ps, hparts⟩ := List.exists_cons_of_ne_nil (splitFrom_ne_nil separator .outside s)
    obtain ⟨hp, hps⟩ := separator_not_bare hparts
    unfold splitOutside at hpart
    rw [hparts] at hpart
    have hall : ∀ q ∈ p :: ps, separator ∉ Scan.outside.bare q := List.forall_mem_cons.2 ⟨hp, hps⟩
    exact splitOutside_of_not_mem (hall part hpart)
  · obtain ⟨pieces, hpieces⟩ := exists_cutsInto s
    refine ⟨pieces, hpieces, fun others => hpieces.unique, ?_⟩
    rw [← hpieces.count_bare]
    exact length_splitFrom separator .outside s

/-- A separator behind an escaped quote, and one in a literal that is not closed, cut nothing. -/
theorem splitOutside_faithful_of_open_literal :
    splitOutside ';' "a;'b\\';';\\\";d".toList =
        ["a".toList, "'b\\';'".toList, "\\\";d".toList] ∧
      splitOutside ';' "'b\\';'".toList = ["'b\\';'".toList] ∧
      ∃ pieces, CutsInto "a;'b\\';';\\\";d".toList pieces ∧ pieces.count (.bare ';') = 2 := by
  have hparts : splitOutside ';' "a;'b\\';';\\\";d".toList =
      ["a".toList, "'b\\';'".toList, "\\\";d".toList] := by decide
  obtain ⟨-, hagain, pieces, hpieces, -, hlength⟩ :=
    splitOutside_faithful ';' "a;'b\\';';\\\";d".toList
  rw [hparts] at hagain hlength
  refine ⟨hparts, hagain _ (by decide), pieces, hpieces, ?_⟩
  simp only [List.length_cons, List.length_nil] at hlength
  omega

end Tabular.Text
